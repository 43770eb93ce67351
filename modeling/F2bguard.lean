import F2bguard.PyText
import F2bguard.Ipaddress
import F2bguard.PyJson
import F2bguard.Tables
import F2bguard.Datetime
import F2bguard.Doubles
import F2bguard.Uuid
import F2bguard.Claims
import F2bguard.Store
import F2bguard.Lifecycle
import F2bguard.Requests
import F2bguard.StoreRuns
import F2bguard.Isolation
import F2bguard.Admission
import F2bguard.Server
import F2bguard.Sender
import F2bguard.Payloads
import F2bguard.SenderSteps
import F2bguard.Runs
import F2bguard.SenderRuns
import F2bguard.SenderConfig
import F2bguard.Agreement
import F2bguard.RequestSize
import F2bguard.Fence
import F2bguard.Replica
import F2bguard.Identities
import F2bguard.ActiveClaims
import F2bguard.Delivery
import F2bguard.Intervals
import F2bguard.Networks
import F2bguard.Whitelist
import F2bguard.PfHelper
import F2bguard.Desired
import F2bguard.HelperClient
import F2bguard.Enforcer
import F2bguard.HelperLimits
import F2bguard.Handler
import F2bguard.Enforceable
import F2bguard.Drain
import F2bguard.Scanner
import F2bguard.Exceptions
import F2bguard.Php
import F2bguard.Alias
import F2bguard.PhpValue
import F2bguard.ConfigStore
import F2bguard.Runtime
import F2bguard.Service
import F2bguard.ReceiverConfig
import F2bguard.Pages
import F2bguard.ClientRecord
import F2bguard.PageRuns
import F2bguard.RuntimeAgreement
import F2bguard.Constraints
import F2bguard.SideBySide
import F2bguard.History
import F2bguard.Batches
import F2bguard.PrintedJson
import F2bguard.CanonicalPayloads
import F2bguard.Ranking
import F2bguard.Truncation
import F2bguard.EnforcementState
import F2bguard.PyDict
import F2bguard.FingerprintMap
import F2bguard.LineReader
import F2bguard.ExchangeFraming
import F2bguard.RollingWindow
import F2bguard.RateLimiter
import F2bguard.StrictJson
import F2bguard.Enumeration
import F2bguard.Fifo
import F2bguard.HelperSteps
import F2bguard.EnforcerSteps
import F2bguard.Interleaving
import F2bguard.SettledTables
import F2bguard.Fleet
import F2bguard.Redo
import F2bguard.Commands
import F2bguard.Reconciliation
import F2bguard.Installation
import F2bguard.RelyGuarantee
import F2bguard.FileSystem
import F2bguard.TrustedFiles
import F2bguard.Publication
import F2bguard.MissingDirectory
import F2bguard.PacketFilter
import F2bguard.Rules
import F2bguard.Packets
import F2bguard.Status
