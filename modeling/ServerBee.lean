import ServerBee.Authority.Contracts
import ServerBee.Authority.Contracts
import ServerBee.Authority.Lifecycle
import ServerBee.Authority.History
import ServerBee.Authority.Connections
import ServerBee.Authority.Fencing
import ServerBee.Push.Leases
import ServerBee.Push.Outcomes
import ServerBee.Alerts.Model
import ServerBee.Alerts.Admission
import ServerBee.Lib.Calendar
import ServerBee.Lib.LocalTime
import ServerBee.Renewal.Model
import ServerBee.Renewal.CatchUp
import ServerBee.Reminders.Model
import ServerBee.Reminders.Once
import ServerBee.Mobile.Machine
import ServerBee.Mobile.Effects
import ServerBee.Mobile.SingleUse
import ServerBee.Lib.Crash
import ServerBee.Upgrade.Model
import ServerBee.Upgrade.Programs
import ServerBee.Upgrade.Survival
import ServerBee.Alerts.Intents
import ServerBee.Alerts.Suppression
import ServerBee.Alerts.Replay
import ServerBee.Traffic.Model
import ServerBee.Firewall.Agent
import ServerBee.Traffic.Conservation
import ServerBee.Firewall.Mirror
import ServerBee.Firewall.Distribution
import ServerBee.Lib.Run
import ServerBee.Firewall.Convergence
import ServerBee.DesiredState.Model
import ServerBee.DesiredState.LastWriter
import ServerBee.Lib.Sparse
import ServerBee.Transfers.Model
import ServerBee.Transfers.Integrity
import ServerBee.Firewall.Text
import ServerBee.Firewall.Guardrail
import ServerBee.Firewall.Protection
import ServerBee.UpgradeJobs.Lifecycle
import ServerBee.Renewal.Edits
import ServerBee.Renewal.Frame
import ServerBee.Tasks.Agreement
import ServerBee.Onboarding.Model
import ServerBee.Onboarding.Steps
import ServerBee.Onboarding.Once
import ServerBee.Onboarding.Idempotence
import ServerBee.Mobile.Credentials
import ServerBee.Mobile.Grant
import ServerBee.Tasks.Outcomes
import ServerBee.Files.Paths
import ServerBee.Files.Uploads
import ServerBee.Files.AllOrNothing
import ServerBee.Alerts.Rules
import ServerBee.Alerts.Validity
import ServerBee.Lib.Buckets
import ServerBee.Rollups.Model
import ServerBee.Rollups.Coverage
import ServerBee.Addresses.Convergence
import ServerBee.Docker.Model
import ServerBee.Docker.Streaming
import ServerBee.ProbeTargets.Model
import ServerBee.ProbeTargets.Soundness
import ServerBee.Capabilities.Authority
import ServerBee.Capabilities.Terminals
import ServerBee.Capabilities.Teardown
import ServerBee.Lib.Splits
import ServerBee.Probes.Address
import ServerBee.Probes.Model
import ServerBee.Probes.Safety
import ServerBee.Passwords.CutOff
import ServerBee.Lib.Base64
import ServerBee.Lib.Json
import ServerBee.PushFormat.Server
import ServerBee.PushFormat.Relay
import ServerBee.PushFormat.Agreement
import ServerBee.Cycles.Ranges
import ServerBee.Lib.Tiling
import ServerBee.Cycles.Tiling
import ServerBee.Cycles.Daily
import ServerBee.Cycles.Windows
import ServerBee.Cycles.Totals
import ServerBee.Lib.Regex
import ServerBee.SshLogins.Parser
import ServerBee.SshLogins.Grammar
import ServerBee.SshLogins.Forgery
import ServerBee.Lib.Window
import ServerBee.Detectors.Model
import ServerBee.Detectors.Windows
import ServerBee.Detectors.Emissions
import ServerBee.FirstSeen.Model
import ServerBee.FirstSeen.Lru
import ServerBee.Capabilities.Supervisor
import ServerBee.CapabilityEvents.Model
import ServerBee.CapabilityEvents.Identities
import ServerBee.CapabilityEvents.Once
import ServerBee.CapabilityEvents.Retained
import ServerBee.CapabilityEvents.Delivery
import ServerBee.ClientAddress.Model
import ServerBee.ClientAddress.Spoofing
import ServerBee.Lib.Quota
import ServerBee.RateLimits.Model
import ServerBee.RateLimits.Exact
import ServerBee.Uptime.Days
import ServerBee.IpQuality.Model
import ServerBee.IpQuality.Attribution
import ServerBee.Lib.Handles
import ServerBee.Schedulers.Model
import ServerBee.Schedulers.Mirror
import ServerBee.Traceroute.Model
import ServerBee.Traceroute.Completion
import ServerBee.Monitors.Model
import ServerBee.Monitors.Notices
import ServerBee.Messages.Model
import ServerBee.Messages.Isolation
import ServerBee.Lib.Passes
import ServerBee.Lib.Related
import ServerBee.Messages.Answers
import ServerBee.Status.Model
import ServerBee.Status.Scope
import ServerBee.Status.Secrecy
import ServerBee.Lib.Lines
import ServerBee.Orphans.Coverage
import ServerBee.Orphans.Selection
import ServerBee.RunToken.Content
import ServerBee.RunToken.Saves
import ServerBee.Lib.Keyset
import ServerBee.Listings.Model
import ServerBee.Listings.Walks
import ServerBee.Originals.Model
import ServerBee.Originals.Custody
import ServerBee.Originals.Order
import ServerBee.Originals.Turns
