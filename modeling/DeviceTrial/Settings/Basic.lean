import DeviceTrial.Judge
import DeviceTrial.Round.Rounds

namespace DeviceTrial

structure Settings where
  destination : UInt64 := 1
  /-- How many cases are run at most. -/
  iterations : UInt64 := 1000
  /-- After how many timeouts in a row a device is unreachable. -/
  patience : UInt32 := UInt32.ofNat Judge.defaultPatience
  /-- How long a round waits for a report, in milliseconds. -/
  wait : UInt64 := 3000
  /-- How often a path may fail to bring a report before none is waited for any more. -/
  limit : UInt32 := UInt32.ofNat Rounds.defaultLimit
  /-- Rounds wait for reports at all. -/
  awaitReports : Bool := true
  directory : Option String := none
  deriving DecidableEq, Repr

end DeviceTrial
