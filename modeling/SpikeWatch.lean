import SpikeWatch.Main
import SpikeWatch.Proofs.Alert.Configured
import SpikeWatch.Proofs.Alert.Cooldown
import SpikeWatch.Proofs.Alert.Delivery
import SpikeWatch.Proofs.Alert.Independence
import SpikeWatch.Proofs.Alert.LastFiring
import SpikeWatch.Proofs.Alert.Reaching
import SpikeWatch.Proofs.Alert.Repeated
import SpikeWatch.Proofs.Alert.Threshold
import SpikeWatch.Proofs.Alert.Unversioned
import SpikeWatch.Proofs.Alert.Webhook
import SpikeWatch.Proofs.Event.Visiting
import SpikeWatch.Proofs.Ingest.Acceptance
import SpikeWatch.Proofs.Ingest.Body
import SpikeWatch.Proofs.Ingest.Defects
import SpikeWatch.Proofs.Ingest.OtherBodies
import SpikeWatch.Proofs.Ingest.OtherValues
import SpikeWatch.Proofs.Ingest.Timestamps
import SpikeWatch.Proofs.Label.DeviceModel
import SpikeWatch.Proofs.Label.Platform
import SpikeWatch.Proofs.Pipeline.Answers
import SpikeWatch.Proofs.Pipeline.Books
import SpikeWatch.Proofs.Pipeline.Contents
import SpikeWatch.Proofs.Pipeline.Counting
import SpikeWatch.Proofs.Pipeline.Faults
import SpikeWatch.Proofs.Pipeline.Grouping
import SpikeWatch.Proofs.Settings.Durations
import SpikeWatch.Proofs.Settings.Loading
import SpikeWatch.Proofs.Settings.Merging
import SpikeWatch.Proofs.Settings.Requirements
import SpikeWatch.Proofs.Store.Calls
import SpikeWatch.Proofs.Task.LifeCycle
import SpikeWatch.Proofs.Totals
import SpikeWatch.Proofs.Window.Listing
import SpikeWatch.Proofs.Window.Survivors
import SpikeWatch.Proofs.Window.Sweeps
