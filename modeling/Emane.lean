import Emane.Antenna.Sharing
import Emane.BentPipe.Discipline
import Emane.BentPipe.Conservation
import Emane.BentPipe.Integrity
import Emane.BentPipe.Curve
import Emane.BentPipe.Slots
import Emane.BentPipe.Wakeups
import Emane.Boundary.Stream
import Emane.CommEffect.Layer
import Emane.Configuration.Registration
import Emane.Configuration.Registry
import Emane.Eel.Tokens
import Emane.Eel.Publication
import Emane.Eel.Scenario
import Emane.EventService.Channel
import Emane.FlowControl.Handshake
import Emane.Ieee80211.Discipline
import Emane.Ieee80211.NeighborCodec
import Emane.Ieee80211.Neighbors
import Emane.Ieee80211.Receive
import Emane.LegacyOta.RoundTrip
import Emane.LegacyOta.Selection
import Emane.Nem.QueuedLayer
import Emane.NeighborMetric.Missed
import Emane.Noise.Shares
import Emane.Noise.SubBand
import Emane.Noise.Transmitters
import Emane.Ota.Cleanup
import Emane.Ota.RoundTrip
import Emane.Ota.Safety
import Emane.Platform.Stack
import Emane.Phy.NoiseFloor
import Emane.Phy.GainCache
import Emane.PluginApi.MimoRx
import Emane.QueueMetric.Manager
import Emane.Rfpipe.Discipline
import Emane.Rfpipe.FlowControl
import Emane.Runtime.Sequential
import Emane.Spectrum.Atomicity
import Emane.Spectrum.Compression
import Emane.Spectrum.FilterCache
import Emane.Spectrum.Independence
import Emane.Statistics.Counters
import Emane.Statistics.PacketTables
import Emane.Tdma.Airtime
import Emane.Tdma.Arbitration
import Emane.Tdma.Conservation
import Emane.Tdma.Integrity
import Emane.Tdma.Schedule
import Emane.Tdma.Slots
import Emane.Tdma.Tokens
import Emane.Timer.Service
