import ConfigRegistry.Main
import ConfigRegistry.Scenario
import ConfigRegistry.Service
import ConfigRegistry.Json.Freeform
import ConfigRegistry.Proofs.Calm
import ConfigRegistry.Proofs.Actions
import ConfigRegistry.Proofs.Notifications
import ConfigRegistry.Proofs.Transitions
import ConfigRegistry.Proofs.Cluster
import ConfigRegistry.Proofs.EventLog
import ConfigRegistry.Proofs.Compaction
import ConfigRegistry.Proofs.Dispatches
import ConfigRegistry.Proofs.Consumption
import ConfigRegistry.Proofs.FetchOrders
import ConfigRegistry.Proofs.ExactlyOnce
import ConfigRegistry.Proofs.Presence
import ConfigRegistry.Proofs.Ownership
import ConfigRegistry.Proofs.Rooms
import ConfigRegistry.Proofs.Leaks
import ConfigRegistry.Proofs.Announcements
import ConfigRegistry.Proofs.Subscribers
import ConfigRegistry.Proofs.Convergence
import ConfigRegistry.Proofs.Configs
import ConfigRegistry.Proofs.ActiveConfigs
import ConfigRegistry.Proofs.ConfigVersions
import ConfigRegistry.Proofs.VariableLinks
import ConfigRegistry.Proofs.VariableReferences
import ConfigRegistry.Proofs.DocumentSeams
import ConfigRegistry.Proofs.Retries
import ConfigRegistry.Proofs.Reuse
import ConfigRegistry.Proofs.OwnConfigs
import ConfigRegistry.Proofs.LocalCopy
import ConfigRegistry.Proofs.LateReads
import ConfigRegistry.Proofs.Baselines
import ConfigRegistry.Proofs.AfterDisconnect
import ConfigRegistry.Proofs.Failures
import ConfigRegistry.Proofs.Deadlines
import ConfigRegistry.Proofs.Protocols
import ConfigRegistry.Proofs.Handshakes
import ConfigRegistry.Proofs.Interludes
import ConfigRegistry.Proofs.LateJoins
import ConfigRegistry.Proofs.JsonLiterals
import ConfigRegistry.Proofs.JsonValues
import ConfigRegistry.Proofs.UuidText
import ConfigRegistry.Proofs.JsonShapes
import ConfigRegistry.Proofs.RoundTrips
import ConfigRegistry.Proofs.ByteOrder
import ConfigRegistry.Proofs.SnapshotPayloads
import ConfigRegistry.Proofs.Drains
import ConfigRegistry.Proofs.Outcomes
import ConfigRegistry.Proofs.Sweeps
import ConfigRegistry.Proofs.ConfigUpdates
import ConfigRegistry.Proofs.Declarations
import ConfigRegistry.Proofs.Fanouts
import ConfigRegistry.Proofs.Addresses
import ConfigRegistry.Proofs.ModuleNames
import ConfigRegistry.Proofs.WrittenStrings
import ConfigRegistry.Proofs.EscapedReferences
import ConfigRegistry.Proofs.Memberships
import ConfigRegistry.Proofs.PeriodicRuns
import ConfigRegistry.Proofs.Expiry
import ConfigRegistry.Proofs.PrintedSettings
