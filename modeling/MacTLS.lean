import MacTLS.Record.Stream
import MacTLS.Handshake.Containment
import MacTLS.Handshake.Keys
import MacTLS.Lib.Fifo
import MacTLS.Time
import MacTLS.Entropy
import MacTLS.Fetch.Target
import MacTLS.Handshake.ChainOrder
import MacTLS.Async.Effects
import MacTLS.Handshake.Flight
import MacTLS.Handshake.Negotiation
import MacTLS.Handshake.SecondFlight
import MacTLS.Handshake.RetryRules
import MacTLS.Handshake.Settling
import MacTLS.Handshake.WantRead
import MacTLS.Http.Encoding
import MacTLS.Async.Lifecycle
import MacTLS.Async.CleanClose
import MacTLS.Async.Endpoints
import MacTLS.Async.Inbound
import MacTLS.Async.Closing
import MacTLS.Async.Ending
import MacTLS.Async.Filling
import MacTLS.Async.Completions
import MacTLS.Async.SessionCache
import MacTLS.Async.Offers
import MacTLS.Async.Reporting
import MacTLS.Async.Budget
import MacTLS.Async.Stalling
import MacTLS.Async.Relay
import MacTLS.Async.Resumption
import MacTLS.Async.Isolation
import MacTLS.Async.Trust
import MacTLS.Async.Channel
import MacTLS.Async.Received
import MacTLS.Fetch.Response
import MacTLS.Ssl.Exchange
import MacTLS.Handshake.CertificateFraming
import MacTLS.Handshake.HelloBounds
import MacTLS.Handshake.Ledger
import MacTLS.Probes.Mul64
