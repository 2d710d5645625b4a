import ThermalGauge.Host.Callers
import ThermalGauge.Main
import ThermalGauge.Proofs.Monitor.Rounds
import ThermalGauge.Text.Utf8.Lemmas
import ThermalGauge.Proofs.Monitor.Performance
import ThermalGauge.Proofs.Monitor.Delivery
import ThermalGauge.Proofs.Monitor.Receiver
import ThermalGauge.Proofs.Gauge
import ThermalGauge.Proofs.Host
import ThermalGauge.Proofs.Channel
import ThermalGauge.Proofs.Fallback
import ThermalGauge.Proofs.FileTree.Moved
import ThermalGauge.Proofs.Cooling.Shown
import ThermalGauge.Proofs.Ratio
import ThermalGauge.Proofs.Cooling.Listing
import ThermalGauge.Proofs.Cooling.Edits
import ThermalGauge.Proofs.Cooling.Dependence
import ThermalGauge.Proofs.Environment
import ThermalGauge.Proofs.Host.Breakdown
import ThermalGauge.Proofs.Host.Together
import ThermalGauge.Proofs.Text.Numeral
import ThermalGauge.Proofs.Command.Agreement
import ThermalGauge.Proofs.Command.Watching
import ThermalGauge.Proofs.Settings.Margin
import ThermalGauge.Proofs.Cooling.Throttling
import ThermalGauge.Proofs.Cooling.Numbers
import ThermalGauge.Proofs.Cooling.Roots
import ThermalGauge.Proofs.Ramp.Full
import ThermalGauge.Proofs.Attempts
import ThermalGauge.Proofs.Change.Streams
import ThermalGauge.Proofs.Component
import ThermalGauge.Command.Pace
import ThermalGauge.Proofs.Command.Counted
import ThermalGauge.Proofs.FileTree.Distinct
import ThermalGauge.Proofs.Selection
import ThermalGauge.Proofs.Command.Decoding
import ThermalGauge.Proofs.Command.Spellings
