/-!
# Rail enables

The output lines that a sequence can drive, with their schematic names. A name that ends in
`L` is active low; nothing in this library depends on it, since sequences speak of levels.
-/

namespace RailSequencer

/-- The level of an output line. -/
inductive Level where
  | low
  | high
deriving DecidableEq, Repr, Inhabited

namespace Level

def ofBool : Bool → Level
  | false => .low
  | true => .high

def isHigh : Level → Bool
  | .low => false
  | .high => true

end Level

/-- An output line of some power tree. The first two exist on every tree, the next twenty on
the split trees only, the last eight on the simplified tree only. -/
inductive Rail where
  | sysRstL
  | apCoreEn
  | ppvarLogicEn
  | pp900ApEn
  | pp900PcieEn
  | pp900PmuEn
  | pp900PllEn
  | pp900UsbEn
  | pp1800PmuEnL
  | lpddrPwrEn
  | pp1800UsbEnL
  | pp3300UsbEnL
  | pp5000En
  | pp3300TrackpadEnL
  | pp1800LidEnL
  | pp1800SixaxisEnL
  | pp1800SensorEnL
  | ppvarClogicEn
  | pp900DdrpllEn
  | pp1800ApAvddEnL
  | pp1800S0EnL
  | pp3300S0EnL
  | pp900S3En
  | pp3300S3En
  | pp1800S3En
  | pp1250S3En
  | pp900S0En
  | pp1800UsbEn
  | pp3300S0En
  | pp1800S0En
deriving DecidableEq, Repr, Inhabited

namespace Rail

/-- Every rail, in the order of their indices. -/
def all : List Rail :=
  [.sysRstL, .apCoreEn, .ppvarLogicEn, .pp900ApEn, .pp900PcieEn, .pp900PmuEn, .pp900PllEn,
   .pp900UsbEn, .pp1800PmuEnL, .lpddrPwrEn, .pp1800UsbEnL, .pp3300UsbEnL, .pp5000En,
   .pp3300TrackpadEnL, .pp1800LidEnL, .pp1800SixaxisEnL, .pp1800SensorEnL, .ppvarClogicEn,
   .pp900DdrpllEn, .pp1800ApAvddEnL, .pp1800S0EnL, .pp3300S0EnL, .pp900S3En, .pp3300S3En,
   .pp1800S3En, .pp1250S3En, .pp900S0En, .pp1800UsbEn, .pp3300S0En, .pp1800S0En]

/-- Number of rails. -/
def count : Nat := 30

/-- Schematic name. -/
def name : Rail → String
  | .sysRstL => "SYS_RST_L"
  | .apCoreEn => "AP_CORE_EN"
  | .ppvarLogicEn => "PPVAR_LOGIC_EN"
  | .pp900ApEn => "PP900_AP_EN"
  | .pp900PcieEn => "PP900_PCIE_EN"
  | .pp900PmuEn => "PP900_PMU_EN"
  | .pp900PllEn => "PP900_PLL_EN"
  | .pp900UsbEn => "PP900_USB_EN"
  | .pp1800PmuEnL => "PP1800_PMU_EN_L"
  | .lpddrPwrEn => "LPDDR_PWR_EN"
  | .pp1800UsbEnL => "PP1800_USB_EN_L"
  | .pp3300UsbEnL => "PP3300_USB_EN_L"
  | .pp5000En => "PP5000_EN"
  | .pp3300TrackpadEnL => "PP3300_TRACKPAD_EN_L"
  | .pp1800LidEnL => "PP1800_LID_EN_L"
  | .pp1800SixaxisEnL => "PP1800_SIXAXIS_EN_L"
  | .pp1800SensorEnL => "PP1800_SENSOR_EN_L"
  | .ppvarClogicEn => "PPVAR_CLOGIC_EN"
  | .pp900DdrpllEn => "PP900_DDRPLL_EN"
  | .pp1800ApAvddEnL => "PP1800_AP_AVDD_EN_L"
  | .pp1800S0EnL => "PP1800_S0_EN_L"
  | .pp3300S0EnL => "PP3300_S0_EN_L"
  | .pp900S3En => "PP900_S3_EN"
  | .pp3300S3En => "PP3300_S3_EN"
  | .pp1800S3En => "PP1800_S3_EN"
  | .pp1250S3En => "PP1250_S3_EN"
  | .pp900S0En => "PP900_S0_EN"
  | .pp1800UsbEn => "PP1800_USB_EN"
  | .pp3300S0En => "PP3300_S0_EN"
  | .pp1800S0En => "PP1800_S0_EN"

/-- The position of a rail in `all`. -/
def index (rail : Rail) : Fin count := ⟨rail.ctorIdx, by cases rail <;> decide⟩

def ofIndex? (index : Nat) : Option Rail := all[index]?

def ofName? (name : String) : Option Rail := all.find? fun rail => rail.name == name

theorem length_all : all.length = count := rfl

theorem ofIndex?_index (rail : Rail) : ofIndex? rail.index = some rail := by
  cases rail <;> rfl

theorem mem_all (rail : Rail) : rail ∈ all :=
  List.mem_of_getElem? (ofIndex?_index rail)

/-- Every index below `count` is that of a rail. -/
theorem exists_index (position : Fin count) : ∃ rail : Rail, rail.index = position := by
  have listed : ∀ position : Fin count, ∃ rail ∈ all, rail.index = position := by decide
  obtain ⟨rail, -, atPosition⟩ := listed position
  exact ⟨rail, atPosition⟩

theorem index_injective {left right : Rail} (same : left.index = right.index) :
    left = right := by
  have := ofIndex?_index left
  rw [same, ofIndex?_index right] at this
  exact (Option.some.inj this).symm

end Rail

end RailSequencer
