import RailSequencer.Bench.Session
import RailSequencer.Controller.Session
import RailSequencer.OneShot.Trial
import RailSequencer.Proofs.Replay
import RailSequencer.Proofs.Step
import RailSequencer.Proofs.Loop
import RailSequencer.Proofs.RestingLevels
import RailSequencer.Proofs.Requests
import RailSequencer.Proofs.ForcedShutdown
import RailSequencer.Proofs.LostSupply
import RailSequencer.Proofs.Descent
import RailSequencer.Proofs.Notifications
import RailSequencer.Proofs.PowerOn
import RailSequencer.Proofs.Unasked
import RailSequencer.Proofs.HeldReset
import RailSequencer.Proofs.Rehearsal
import RailSequencer.Proofs.HeldFlag
import RailSequencer.Proofs.PowerDown
import RailSequencer.Proofs.Release
import RailSequencer.Proofs.AtOnce
import RailSequencer.Proofs.PowerTask
import RailSequencer.Proofs.Sessions
import RailSequencer.Proofs.ControllerRuns
import RailSequencer.Proofs.Wiring
import RailSequencer.Proofs.StateGraph
import RailSequencer.Proofs.Idling
import RailSequencer.Proofs.Agreement
import RailSequencer.Proofs.UsbPorts
import RailSequencer.Proofs.Stores
import RailSequencer.Proofs.SettingsHistory
import RailSequencer.Proofs.KeptOff
import RailSequencer.Proofs.RestartRequests
import RailSequencer.Proofs.RunningLevels
import RailSequencer.Proofs.WarmRestart
import RailSequencer.Proofs.Cancelling
import RailSequencer.Proofs.Punctual
import RailSequencer.Proofs.Suspending
import RailSequencer.Proofs.Timeline
import RailSequencer.Proofs.StableS0
import RailSequencer.Proofs.ColdBoot
import RailSequencer.Proofs.BenchRuns
import RailSequencer.Proofs.HookOrder
import RailSequencer.Proofs.BackingOut
import RailSequencer.Proofs.ChargerGate
import RailSequencer.Proofs.AbortableReplay
import RailSequencer.Proofs.KeepingPace
import RailSequencer.Proofs.Resuming
import RailSequencer.Proofs.HoldTime
import RailSequencer.Proofs.BoundedWait
import RailSequencer.Proofs.Proceeding
import RailSequencer.Proofs.Untouched
import RailSequencer.Proofs.Senses
import RailSequencer.Proofs.Debouncing
import RailSequencer.Proofs.Switches
import RailSequencer.Proofs.Refusals
import RailSequencer.Proofs.Unmeasured
import RailSequencer.Proofs.Acts
import RailSequencer.Proofs.HostGrammar
import RailSequencer.Proofs.HoldSetting
import RailSequencer.Proofs.Rounding
import RailSequencer.Proofs.Hundredths
import RailSequencer.Proofs.HostSettings
import RailSequencer.Proofs.ReadBack
import RailSequencer.Proofs.StoreOutcomes
import RailSequencer.Proofs.Flashless
import RailSequencer.Proofs.FlashFaults
import RailSequencer.Proofs.SlidingWindow
import RailSequencer.Proofs.VoltageAverage
