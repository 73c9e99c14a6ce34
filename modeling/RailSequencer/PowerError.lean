import RailSequencer.SignalMask

/-!
# Failures of a power sequence

Both failures are local: each one leads to a defined next state.
-/

namespace RailSequencer

/-- Why a power sequence did not go on. -/
inductive PowerError where
  /-- Some lines did not appear in time: `missing` are those still low when the wait ended. -/
  | signalTimeout (missing : SignalMask)
  /-- The charger refused to let the processor power on. -/
  | chargerInhibited
deriving DecidableEq, Repr

/-- Lower-case hexadecimal digits of a word, padded with zeros to at least four. -/
def hexWord (word : BitVec 32) : String :=
  let digits := Nat.toDigits 16 word.toNat
  String.ofList (List.replicate (4 - digits.length) '0' ++ digits)

/-- The text of a failure. -/
def PowerError.message : PowerError → String
  | .signalTimeout missing => "power signal timeout (missing 0x" ++ hexWord missing.bits ++ ")"
  | .chargerInhibited => "power-up inhibited by charger"

end RailSequencer
