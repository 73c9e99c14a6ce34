import RailSequencer.Proofs.ControllerRuns

/-!
# Who writes what outlives the program

Flash and the scratch registers outlive the program, and the settings are a copy of what is in
flash and on its way there. Of all tasks only two touch any of it: the store task writes flash, and
the host bus changes settings and asks for restarts. The power task, for one, does neither,
however many turns it takes (`SameStores.poll`), and no other task answers the host. So a round comes
down to what these two do in it (`Live.sameStores_beforeHost`).
-/

namespace RailSequencer.Controller

namespace Live

/-- What the host bus has to itself, and whether flash and answers fail. -/
structure HostSide where
  transfer : Option Transfer
  answer : Option (List UInt8)
  restarting : Bool
  flashFails : Bool
  hostFails : Bool

def hostSide (live : Live) : HostSide where
  transfer := live.ram.transfer
  answer := live.ram.answer
  restarting := live.ram.restarting
  flashFails := live.hardware.flashFails
  hostFails := live.hardware.hostFails

/-- What outlives the program is left alone, and so are the settings, the changes that are on their way
to flash, and all that the host bus has to itself. -/
structure SameStores (before after : Live) : Prop where
  flash : after.hardware.flash = before.hardware.flash
  scratch : after.hardware.scratch = before.hardware.scratch
  settings : after.ram.settings = before.ram.settings
  changes : after.ram.changes = before.ram.changes
  host : after.hostSide = before.hostSide

namespace SameStores

variable {first second third live : Live}

theorem refl (live : Live) : live.SameStores live := ⟨rfl, rfl, rfl, rfl, rfl⟩

theorem trans (begun : first.SameStores second) (rest : second.SameStores third) :
    first.SameStores third :=
  ⟨rest.flash.trans begun.flash, rest.scratch.trans begun.scratch,
    rest.settings.trans begun.settings, rest.changes.trans begun.changes,
    rest.host.trans begun.host⟩

/-- The power task touches neither, however many turns it takes. -/
theorem poll (live : Live) : live.SameStores (PowerTask.poll live) where
  flash := congrArg (·.hardware.flash) live.untouched_poll
  scratch := congrArg (·.hardware.scratch) live.untouched_poll
  settings := congrArg (·.ram.settings) live.untouched_poll
  changes := congrArg (·.ram.changes) live.untouched_poll
  host := by
    have same : (PowerTask.poll live).untouched.hostSide = live.untouched.hostSide :=
      congrArg hostSide live.untouched_poll
    exact same

theorem feeder (live : Live) : live.SameStores live.pollFeeder := by
  rw [pollFeeder]
  split
  · exact ⟨rfl, rfl, rfl, rfl, rfl⟩
  · exact .refl live

theorem sampler (live : Live) : live.SameStores live.pollSampler := by
  rw [pollSampler]
  split
  · simp only [takeSample]
    split
    · exact ⟨rfl, rfl, rfl, rfl, rfl⟩
    · exact ⟨rfl, rfl, rfl, rfl, rfl⟩
  · exact .refl live

theorem converter (live : Live) : live.SameStores live.pollConverter := by
  simp only [pollConverter]
  split
  · split
    · exact ⟨rfl, rfl, rfl, rfl, rfl⟩
    · exact ⟨rfl, rfl, rfl, rfl, rfl⟩
  · exact .refl live

theorem button (live : Live) : live.SameStores live.pollButton := by
  simp only [pollButton]
  split
  · exact ⟨rfl, rfl, rfl, rfl, rfl⟩
  · exact ⟨rfl, rfl, rfl, rfl, rfl⟩

theorem lid (live : Live) : live.SameStores live.pollLid := by
  simp only [pollLid]
  split
  · exact ⟨rfl, rfl, rfl, rfl, rfl⟩
  · exact ⟨rfl, rfl, rfl, rfl, rfl⟩

/-- A look at the shutdown timer changes the mailbox only. -/
theorem timer (live : Live) : live.SameStores live.pollTimer :=
  ⟨rfl, rfl, rfl, rfl, rfl⟩

end SameStores

theorem scratch_pollStore (live : Live) :
    live.pollStore.hardware.scratch = live.hardware.scratch := by
  rw [pollStore_eq, storeAll_eq]

theorem hostSide_pollStore (live : Live) : live.pollStore.hostSide = live.hostSide := by
  rw [pollStore_eq, storeAll_eq]
  rfl

theorem flashFails_storeTaken (live : Live) :
    live.storeTaken.hardware.flashFails = live.hardware.flashFails := by
  rw [storeTaken]
  cases live.ram.changes.taken with
  | none => rfl
  | some change => exact apply_ite Hardware.flashFails _ _ _ |>.trans (ite_self _)

/-- What a round leaves to the host bus, which comes last. -/
def beforeHost (live : Live) : Live :=
  PowerTask.poll live.pollFeeder.pollStore.pollSampler.pollConverter.pollButton.pollLid.pollTimer

/-- In a round the store comes before the host bus, and nothing else touches what is stored. -/
theorem sameStores_beforeHost (live : Live) : live.pollFeeder.pollStore.SameStores live.beforeHost := by
  have sampled := (SameStores.sampler live.pollFeeder.pollStore).trans (.converter _)
  exact (((sampled.trans (.button _)).trans (.lid _)).trans (.timer _)).trans (.poll _)

/-- So the host bus finds what the round has found. -/
theorem hostSide_beforeHost (live : Live) : live.beforeHost.hostSide = live.hostSide :=
  (live.sameStores_beforeHost.host.trans (hostSide_pollStore _)).trans (SameStores.feeder live).host

theorem command?_beforeHost (live : Live) : live.beforeHost.command? = live.command? :=
  congrArg (fun side : HostSide => side.transfer.bind Transfer.command?) live.hostSide_beforeHost

end Live

theorem Hardware.afterReset_flash (before : Hardware) (reason : ResetReason) :
    (before.afterReset reason).flash = before.flash ∧
      (before.afterReset reason).flashFails = before.flashFails := by
  cases reason <;> exact ⟨rfl, rfl⟩

/-- A boot reads back what can be read of the settings from flash, which it leaves alone, and clears the
scratch registers; nothing is on its way to flash. -/
theorem stores_bootWith (fails : SettingKey → Bool) (before : Hardware) (reason : ResetReason) :
    let booted := bootWith fails before reason
    booted.hardware.flash = before.flash ∧ booted.hardware.scratch = {} ∧
      booted.ram.settings = before.flash.load fails ∧ booted.ram.changes = {} := by
  obtain ⟨ready, same, flash, scratch, settings, changes⟩ : ∃ ready : Live,
      (bootWith fails before reason).untouched = ready.untouched ∧
        ready.hardware.flash = before.flash ∧ ready.hardware.scratch = {} ∧
        ready.ram.settings = before.flash.load fails ∧ ready.ram.changes = {} := by
    refine ⟨_, (Live.untouched_launch _ _).trans (Live.untouched_setUpOutputs _ _ _), ?_⟩
    rw [← (before.afterReset_flash reason).1]
    exact ⟨rfl, rfl, rfl, rfl⟩
  exact ⟨(congrArg (·.hardware.flash) same).trans flash,
    (congrArg (·.hardware.scratch) same).trans scratch,
    (congrArg (·.ram.settings) same).trans settings, (congrArg (·.ram.changes) same).trans changes⟩

/-- Flash fails at a boot as it did before. -/
theorem boot_eq_bootWith (before : Hardware) (reason : ResetReason) :
    boot before reason = bootWith (fun _ => before.flashFails) before reason := by
  rw [boot, (before.afterReset_flash reason).2]

theorem stores_boot (before : Hardware) (reason : ResetReason) :
    (boot before reason).hardware.flash = before.flash ∧
      (boot before reason).hardware.scratch = {} ∧
      (boot before reason).ram.settings = before.flash.load (fun _ => before.flashFails) ∧
      (boot before reason).ram.changes = {} := by
  rw [boot_eq_bootWith]
  exact stores_bootWith _ before reason

end RailSequencer.Controller
