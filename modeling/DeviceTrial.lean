import DeviceTrial.Campaign.Basic
import DeviceTrial.Envelope.Notation
import DeviceTrial.Main
import DeviceTrial.Snapshot.Notation
import DeviceTrial.Proofs.Text.Utf8
import DeviceTrial.Proofs.Envelope.Image
import DeviceTrial.Proofs.Envelope.Reading
import DeviceTrial.Proofs.Envelope.RoundTrip
import DeviceTrial.Proofs.Round.Follows
import DeviceTrial.Proofs.Round.Operations
import DeviceTrial.Proofs.Round.Runs
import DeviceTrial.Proofs.Round.Order
import DeviceTrial.Proofs.Store.Clusters
import DeviceTrial.Proofs.Store.Edits
import DeviceTrial.Proofs.Arrival.Effects
import DeviceTrial.Proofs.Arrival.Order
import DeviceTrial.Proofs.History
import DeviceTrial.Proofs.Round.Silences
import DeviceTrial.Proofs.Judge.Rules
import DeviceTrial.Proofs.Judge.Verdicts
import DeviceTrial.Proofs.Store.Places
import DeviceTrial.Proofs.Store.Operations
import DeviceTrial.Proofs.Snapshot.Restore
import DeviceTrial.Proofs.Store.Calls
import DeviceTrial.Proofs.Store.WriteLog
import DeviceTrial.Proofs.Store.DeviceTypes
import DeviceTrial.Proofs.Snapshot.Dump
import DeviceTrial.Proofs.Round.Ends
import DeviceTrial.Proofs.Round.Observed
import DeviceTrial.Proofs.Campaign.Case
import DeviceTrial.Proofs.Campaign.Runs
import DeviceTrial.Proofs.Envelope.Canonical
import DeviceTrial.Proofs.Envelope.Stream
import DeviceTrial.Proofs.Envelope.Content
import DeviceTrial.Proofs.Envelope.Faults
import DeviceTrial.Proofs.Text.Hex
import DeviceTrial.Proofs.Json.Scalars
import DeviceTrial.Proofs.Json.Takes
import DeviceTrial.Proofs.Json.Values
import DeviceTrial.Proofs.Envelope.Described
import DeviceTrial.Proofs.Snapshot.File
import DeviceTrial.Proofs.Judge.Permanence
import DeviceTrial.Proofs.Snapshot.Normal
import DeviceTrial.Proofs.Round.Changes
import DeviceTrial.Proofs.Store.Kept
import DeviceTrial.Proofs.Arrival.Together
import DeviceTrial.Proofs.Campaign.Tallies
import DeviceTrial.Proofs.Envelope.PrefixCode
import DeviceTrial.Proofs.Envelope.Truncation
import DeviceTrial.Proofs.Observations
import DeviceTrial.Proofs.Round.Refusals
import DeviceTrial.Proofs.Store.InPlace
import DeviceTrial.Proofs.Store.Presence
import DeviceTrial.Proofs.Store.Existence
import DeviceTrial.Proofs.Store.Revisions
import DeviceTrial.Proofs.Snapshot.Agreement
import DeviceTrial.Proofs.Judge.Scope
import DeviceTrial.Proofs.Campaign.Failures
import DeviceTrial.Proofs.Arrival.Gates
import DeviceTrial.Proofs.Envelope.Denoted
import DeviceTrial.Proofs.Paths
import DeviceTrial.Proofs.Text.Numerals
import DeviceTrial.Proofs.Text.Parts
import DeviceTrial.Proofs.Campaign.Lines
import DeviceTrial.Proofs.Store.Reported
import DeviceTrial.Proofs.Float.Rounding
import DeviceTrial.Proofs.Float.Conversion
import DeviceTrial.Proofs.Float.Shortest
import DeviceTrial.Proofs.Json.Scaling
import DeviceTrial.Proofs.Json.Floats
import DeviceTrial.Proofs.Json.Compact
import DeviceTrial.Proofs.Envelope.Floats
import DeviceTrial.Proofs.Toml.Text
import DeviceTrial.Proofs.Toml.Values
import DeviceTrial.Proofs.Toml.Documents
import DeviceTrial.Proofs.Settings
