import RailSequencer.Proofs.Acts
import RailSequencer.Proofs.HostGrammar
import RailSequencer.Proofs.Hundredths
import RailSequencer.Proofs.SettingsHistory

/-!
# Settings that the host has written

The host writes a setting as a register: `SettingKey.change?` says which bytes are accepted and what
they set. The settings after any acts are those that were loaded, with the accepted writes carried out
(`Act.settings`), and each has the value of the last write that was accepted for it
(`Act.value_settings`). So a register that shows a setting shows the bytes of that write: the revision
and the hold time as they are, the power-on at boot as zero or one.
-/

namespace RailSequencer.Controller

/-- The register of a setting. -/
def SettingKey.register : SettingKey → UInt8
  | .autoPowerOn => 0x14
  | .longPress => 0x15
  | .vinThreshold => 0x16
  | .hardwareVersion => 0x03

instance (version : UInt8) : Decidable (CanDrive version) :=
  decidable_of_iff _ isSome_drivable_iff

/-- What a write of the register sets, from the bytes that follow the register. Other bytes are not
accepted. -/
def SettingKey.change? : SettingKey → List UInt8 → Option SettingChange
  | .autoPowerOn, [enabled] => some (.autoPowerOn (enabled != 0))
  | .longPress, [high, low] => some (.longPress (wordOf high low).toUInt32)
  | .vinThreshold, [high, low] => some (.vinThreshold (hundredths (wordOf high low).toNat))
  | .hardwareVersion, [version] => if CanDrive version then some (.hardwareVersion version) else none
  | _, _ => none

namespace Act

/-- The bytes of an accepted write of a setting, without the register, if an act finds one on the
bus. -/
def written? (key : SettingKey) : Act → Option (List UInt8)
  | .round found _ =>
    match found.ram.transfer with
    | some (.write (register :: bytes)) =>
      if register = key.register ∧ (key.change? bytes).isSome then some bytes else none
    | _ => none
  | .boot _ _ | .inputs _ _ => none

/-- The bytes of the last accepted write of a setting, if there was one. -/
def lastWritten? (key : SettingKey) (acts : List Act) : Option (List UInt8) :=
  (acts.filterMap (written? key)).getLast?

/-- What the host sets in an act, if it sets anything. -/
def change? : Act → Option SettingChange
  | .round found _ => found.command?.bind HostCommand.change?
  | .boot _ _ | .inputs _ _ => none

/-- The settings after acts, the first one first. -/
def settings (loaded : Settings) (acts : List Act) : Settings :=
  (acts.filterMap change?).foldl Settings.change loaded

end Act

/-- Accepted writes are short enough for the bus. -/
theorem SettingKey.length_of_change? {key : SettingKey} {bytes : List UInt8}
    (accepted : (key.change? bytes).isSome = true) : bytes.length + 1 < transferLimit := by
  unfold change? at accepted
  have one : 2 < transferLimit := by decide
  have two : 3 < transferLimit := by decide
  split at accepted
  · exact one
  · exact two
  · exact two
  · exact one
  · exact absurd accepted Bool.false_ne_true

theorem SettingKey.key_of_change? {key : SettingKey} {bytes : List UInt8} {change : SettingChange}
    (accepted : key.change? bytes = some change) : change.key = key := by
  unfold change? at accepted
  split at accepted
  case h_1 | h_2 | h_3 =>
    obtain rfl := Option.some.inj accepted
    rfl
  case h_4 =>
    obtain ⟨-, same⟩ := Option.ite_none_right_eq_some.mp accepted
    obtain rfl := Option.some.inj same
    rfl
  case h_5 => exact absurd accepted nofun

/-- The host sets what it writes. -/
theorem HostCommand.change?_parse? {register : UInt8} {bytes : List UInt8} {change : SettingChange} :
    (HostCommand.parse? register bytes).bind HostCommand.change? = some change ↔
      register = change.key.register ∧ change.key.change? bytes = some change := by
  constructor
  · intro sets
    obtain ⟨command, parsed, set⟩ := Option.bind_eq_some_iff.mp sets
    have code {known : UInt8} (same : register.toNat = known.toNat) : register = known :=
      UInt8.toNat_inj.mp same
    unfold HostCommand.parse? at parsed
    split at parsed
    next version same =>
      obtain ⟨drives, carried⟩ := Option.ite_none_right_eq_some.mp parsed
      obtain rfl := Option.some.inj carried
      obtain rfl := Option.some.inj set
      exact ⟨@code 0x03 same, if_pos (isSome_drivable_iff.mp drives)⟩
    next enabled same =>
      obtain rfl := Option.some.inj parsed
      obtain rfl := Option.some.inj set
      exact ⟨@code 0x14 same, rfl⟩
    next high low same =>
      obtain rfl := Option.some.inj parsed
      obtain rfl := Option.some.inj set
      exact ⟨@code 0x15 same, rfl⟩
    next high low same =>
      obtain rfl := Option.some.inj parsed
      obtain rfl := Option.some.inj set
      exact ⟨@code 0x16 same, rfl⟩
    case h_5 | h_6 | h_7 | h_8 | h_9 =>
      obtain rfl := Option.some.inj parsed
      exact absurd set nofun
    case h_10 => exact absurd parsed nofun
  · rintro ⟨rfl, accepted⟩
    unfold SettingKey.change? at accepted
    split at accepted
    next enabled same =>
      obtain rfl := Option.some.inj accepted
      rfl
    next high low same =>
      obtain rfl := Option.some.inj accepted
      rfl
    next high low same =>
      obtain rfl := Option.some.inj accepted
      rfl
    next version same =>
      obtain ⟨drives, carried⟩ := Option.ite_none_right_eq_some.mp accepted
      obtain rfl := Option.some.inj carried
      have parsed : HostCommand.parse? 0x03 [version] =
          some (.changeSetting (.hardwareVersion version)) :=
        if_pos (isSome_drivable_iff.mpr drives)
      exact Option.bind_eq_some_iff.mpr ⟨_, parsed, rfl⟩
    next => exact absurd accepted nofun

namespace Act

/-- An act sets what an accepted write on the bus says, and nothing else. -/
theorem change?_eq_some_iff {act : Act} {change : SettingChange} :
    act.change? = some change ↔ ∃ bytes,
      act.written? change.key = some bytes ∧ change.key.change? bytes = some change := by
  cases act with
  | boot | inputs =>
    constructor
    · intro impossible
      cases impossible
    · rintro ⟨_, impossible, _⟩
      cases impossible
  | round found =>
    simp only [Act.change?, Live.command?, written?]
    cases found.ram.transfer with
    | none => simp
    | some transfer =>
      constructor
      · intro sets
        obtain ⟨command, sent, set⟩ := Option.bind_eq_some_iff.mp sets
        obtain ⟨register, bytes, rfl, fits, parsed⟩ := Transfer.command?_eq_some_iff.mp sent
        obtain ⟨rfl, accepted⟩ :=
          HostCommand.change?_parse?.mp (Option.bind_eq_some_iff.mpr ⟨command, parsed, set⟩)
        have taken : (change.key.change? bytes).isSome = true := by rw [accepted]; rfl
        exact ⟨bytes, if_pos ⟨rfl, taken⟩, accepted⟩
      · rintro ⟨bytes, written, accepted⟩
        split at written
        next register _ sent =>
          obtain rfl := Option.some.inj sent
          obtain ⟨⟨rfl, taken⟩, whole⟩ := Option.ite_none_right_eq_some.mp written
          obtain rfl := Option.some.inj whole
          obtain ⟨command, parsed, set⟩ :=
            Option.bind_eq_some_iff.mp (HostCommand.change?_parse?.mpr ⟨rfl, accepted⟩)
          exact Option.bind_eq_some_iff.mpr ⟨command, Transfer.command?_eq_some_iff.mpr
            ⟨_, _, rfl, SettingKey.length_of_change? taken, parsed⟩, set⟩
        next => cases written

variable {loaded : Settings} {key : SettingKey}

/-- The bytes of an accepted write say what is set. -/
theorem change?_of_written? {act : Act} {bytes : List UInt8} (written : act.written? key = some bytes) :
    ∃ change, act.change? = some change ∧ key.change? bytes = some change ∧ change.key = key := by
  have accepted : (key.change? bytes).isSome = true := by
    cases act with
    | boot | inputs => exact absurd written.symm (Option.some_ne_none bytes)
    | round found =>
      simp only [written?] at written
      split at written
      next =>
        obtain ⟨⟨-, taken⟩, whole⟩ := Option.ite_none_right_eq_some.mp written
        obtain rfl := Option.some.inj whole
        exact taken
      next => exact absurd written.symm (Option.some_ne_none bytes)
  obtain ⟨change, sets⟩ := Option.isSome_iff_exists.mp accepted
  obtain rfl := SettingKey.key_of_change? sets
  exact ⟨change, change?_eq_some_iff.mpr ⟨bytes, written, sets⟩, sets, rfl⟩

theorem settings_append (loaded : Settings) (first second : List Act) :
    settings loaded (first ++ second) = settings (settings loaded first) second := by
  simp only [settings, List.filterMap_append, List.foldl_append]

theorem settings_boot (loaded : Settings) (before : Hardware) (reason : ResetReason)
    (acts : List Act) : settings loaded (.boot before reason :: acts) = settings loaded acts := rfl

/-- After acts each setting has the value of the last write that was accepted for it, and the value
that was loaded if there was none. -/
theorem value_settings (loaded : Settings) (acts : List Act) (key : SettingKey) :
    (settings loaded acts).value key =
      ((lastWritten? key acts).bind key.change?).getD (loaded.value key) := by
  induction acts using List.reverseRecOn with
  | nil => rfl
  | append_singleton acts act inductionHypothesis =>
    rw [settings_append, lastWritten?, List.filterMap_append]
    cases written : act.written? key with
    | some bytes =>
      obtain ⟨change, set, sets, same⟩ := change?_of_written? written
      rw [List.filterMap_cons_some written, List.filterMap_nil, List.getLast?_concat, settings,
        List.filterMap_cons_some set]
      change ((settings loaded acts).change change).value key = ((some bytes).bind key.change?).getD _
      rw [Settings.value_change, if_pos same, Option.bind_some, sets, Option.getD_some]
    | none =>
      have kept : (settings (settings loaded acts) [act]).value key =
          (settings loaded acts).value key := by
        cases set : act.change? with
        | none => rw [settings, List.filterMap_cons_none set]; rfl
        | some change =>
          have other : change.key ≠ key := by
            rintro rfl
            obtain ⟨bytes, found, -⟩ := change?_eq_some_iff.mp set
            exact absurd (written.symm.trans found) nofun
          rw [settings, List.filterMap_cons_some set]
          exact (Settings.value_change _ change key).trans (if_neg other)
      rw [List.filterMap_cons_none written, List.filterMap_nil, List.append_nil, kept]
      exact inductionHypothesis

end Act

theorem toNat_wordOf (high low : UInt8) : (wordOf high low).toNat = high.toNat * 256 + low.toNat := by
  have high_lt := high.toNat_lt
  have low_lt := low.toNat_lt
  rw [wordOf, UInt16.toNat_ofNat']
  omega

theorem wordBytes_wordOf (high low : UInt8) : wordBytes (wordOf high low).toNat = [high, low] := by
  have low_lt := low.toNat_lt
  have front : (high.toNat * 256 + low.toNat) / 256 = high.toNat := by omega
  have back : UInt8.ofNat (high.toNat * 256 + low.toNat) = low := by
    apply UInt8.toNat_inj.mp
    rw [UInt8.toNat_ofNat']
    omega
  rw [wordBytes, toNat_wordOf, front, back, UInt8.ofNat_toNat]

/-- Two bytes hold one word. -/
theorem wordBytes_inj {a b : Nat} (small : a < 65536) (small' : b < 65536)
    (same : wordBytes a = wordBytes b) : a = b := by
  simp only [wordBytes, List.cons.injEq, and_true, ← UInt8.toNat_inj, UInt8.toNat_ofNat'] at same
  omega

namespace Act

variable (loaded : Settings) (acts : List Act)

/-- What was written last was accepted. -/
theorem change?_of_lastWritten? {key : SettingKey} {bytes : List UInt8}
    (last : lastWritten? key acts = some bytes) :
    ∃ change, key.change? bytes = some change ∧ (settings loaded acts).value key = change := by
  obtain ⟨act, -, written⟩ := List.mem_filterMap.mp (List.mem_of_getLast? last)
  obtain ⟨change, -, sets, -⟩ := change?_of_written? written
  refine ⟨change, sets, ?_⟩
  rw [value_settings, last, Option.bind_some, sets]
  rfl

theorem value_of_lastWritten?_none {key : SettingKey} (none : lastWritten? key acts = none) :
    (settings loaded acts).value key = loaded.value key := by
  rw [value_settings, none]
  rfl

/-- The revision is read as it was written. -/
theorem hardwareVersion_settings : [(settings loaded acts).hardwareVersion] =
    (lastWritten? .hardwareVersion acts).getD [loaded.hardwareVersion] := by
  cases last : lastWritten? .hardwareVersion acts with
  | none =>
    rw [SettingChange.hardwareVersion.inj (value_of_lastWritten?_none loaded acts last)]
    rfl
  | some bytes =>
    obtain ⟨change, sets, value⟩ := change?_of_lastWritten? loaded acts last
    match bytes, sets with
    | [version], sets =>
      obtain rfl := Option.some.inj (Option.ite_none_right_eq_some.mp sets).2
      rw [SettingChange.hardwareVersion.inj value]
      rfl

/-- Any other byte than zero turns the setting on, which is read as one. -/
theorem autoPowerOn_settings : [if (settings loaded acts).autoPowerOn then 1 else 0] =
    ((lastWritten? .autoPowerOn acts).map (List.map fun byte : UInt8 =>
      if byte = 0 then (0 : UInt8) else 1)).getD [if loaded.autoPowerOn then 1 else 0] := by
  cases last : lastWritten? .autoPowerOn acts with
  | none =>
    rw [SettingChange.autoPowerOn.inj (value_of_lastWritten?_none loaded acts last)]
    rfl
  | some bytes =>
    obtain ⟨change, sets, value⟩ := change?_of_lastWritten? loaded acts last
    match bytes, sets with
    | [enabled], sets =>
      obtain rfl := Option.some.inj sets
      rw [SettingChange.autoPowerOn.inj value]
      by_cases off : enabled = 0 <;> simp [off]

/-- A hold time of two bytes is read as it was written. -/
theorem longPress_settings : wordBytes (min (settings loaded acts).longPressMs.toNat 65535) =
    (lastWritten? .longPress acts).getD (wordBytes (min loaded.longPressMs.toNat 65535)) := by
  cases last : lastWritten? .longPress acts with
  | none =>
    rw [SettingChange.longPress.inj (value_of_lastWritten?_none loaded acts last)]
    rfl
  | some bytes =>
    obtain ⟨change, sets, value⟩ := change?_of_lastWritten? loaded acts last
    match bytes, sets with
    | [high, low], sets =>
      obtain rfl := Option.some.inj sets
      have short : min (wordOf high low).toUInt32.toNat 65535 = (wordOf high low).toNat :=
        Nat.min_eq_left (Nat.le_of_lt_succ (wordOf high low).toNat_lt)
      rw [SettingChange.longPress.inj value, short, wordBytes_wordOf]
      rfl

/-- The threshold is kept in volts. -/
theorem vinThreshold_settings {high low : UInt8}
    (last : lastWritten? .vinThreshold acts = some [high, low]) :
    (settings loaded acts).vinThreshold = hundredths (wordOf high low).toNat := by
  obtain ⟨change, sets, value⟩ := change?_of_lastWritten? loaded acts last
  obtain rfl := Option.some.inj sets
  exact SettingChange.vinThreshold.inj value

end Act

end RailSequencer.Controller
