import Mathlib

/-! # The gauges of dropped packets

`readBasicMetricsData` of `pkg/plugin/dropreason/dropreason_linux.go`. The kernel counts drops
under their type and their return value, with one value for each CPU. A pass over the map sets
the gauges of a type once for each of its return values, so that the one visited last is the
one that stays. The rounding of a 64-bit number to `float64` is a parameter.
-/
namespace Retina.DropReason

structure MetricsMapKey where
  dropType : UInt16
  returnVal : Int32
deriving DecidableEq

structure MetricsMapValue where
  count : UInt64
  bytes : UInt64

structure MetricsMapEntry where
  key : MetricsMapKey
  values : List MetricsMapValue

/-- `utils.DropReason.String`. Numbers without a name are printed. -/
def dropReasonString (dropType : UInt16) : String :=
  match dropType.toNat with
  | 0 => "IPTABLE_RULE_DROP"
  | 1 => "IPTABLE_NAT_DROP"
  | 2 => "TCP_CONNECT_BASIC"
  | 3 => "TCP_ACCEPT_BASIC"
  | 4 => "TCP_CLOSE_BASIC"
  | 5 => "CONNTRACK_ADD_DROP"
  | 6 => "UNKNOWN_DROP"
  | n => toString n

def getType (dk : MetricsMapKey) : String := dropReasonString dk.dropType

def getDirection (dk : MetricsMapKey) : String :=
  if getType dk = "TCP_CONNECT_BASIC" then "egress"
  else if getType dk = "TCP_ACCEPT_BASIC" then "ingress"
  else "unknown"

def getPktCountAndBytes (float64 : ℚ → ℚ) (dv : List MetricsMapValue) : ℚ × ℚ :=
  let sums := dv.foldl (fun sums v => (sums.1 + v.count,sums.2 + v.bytes)) ((0,0) : UInt64 × UInt64)
  (float64 sums.1.toNat,float64 sums.2.toNat)

abbrev GaugeLabels := String × String

structure DropGauges where
  dropPackets : GaugeLabels → ℚ
  dropBytes : GaugeLabels → ℚ

def dropMetricAdd (gauges : DropGauges) (reason direction : String) (count bytes : ℚ) : DropGauges where
  dropPackets := Function.update gauges.dropPackets (reason,direction) count
  dropBytes := Function.update gauges.dropBytes (reason,direction) bytes

def processMapValue (float64 : ℚ → ℚ) (gauges : DropGauges) (e : MetricsMapEntry) : DropGauges :=
  dropMetricAdd gauges (getType e.key) (getDirection e.key) (getPktCountAndBytes float64 e.values).1
    (getPktCountAndBytes float64 e.values).2

/-- One pass, with the entries in the order of the iteration. -/
def readBasicMetricsData (float64 : ℚ → ℚ) (gauges : DropGauges) (entries : List MetricsMapEntry) : DropGauges :=
  entries.foldl (processMapValue float64) gauges

/-! ## Totals -/

def MetricsMapEntry.labels (e : MetricsMapEntry) : GaugeLabels := (getType e.key,getDirection e.key)

section
variable (f : MetricsMapValue → UInt64)

def MetricsMapEntry.total (e : MetricsMapEntry) : ℕ := (e.values.map fun v => (f v).toNat).sum

def totalOf (entries : List MetricsMapEntry) (labels : GaugeLabels) : ℕ :=
  ((entries.filter fun e => e.labels = labels).map (MetricsMapEntry.total f)).sum

theorem totalOf_append (xs ys : List MetricsMapEntry) (labels : GaugeLabels) :
    totalOf f (xs ++ ys) labels = totalOf f xs labels + totalOf f ys labels := by
  simp [totalOf]

theorem totalOf_cons_self (e : MetricsMapEntry) (xs : List MetricsMapEntry) :
    totalOf f (e :: xs) e.labels = e.total f + totalOf f xs e.labels := by
  simp [totalOf]

theorem totalOf_eq_zero {entries : List MetricsMapEntry} {labels : GaugeLabels}
    (h : ∀ e ∈ entries, e.labels ≠ labels) : totalOf f entries labels = 0 := by
  have hnil : entries.filter (fun e => e.labels = labels) = [] := by
    rw [List.filter_eq_nil_iff]
    intro e he
    simpa using h e he
  rw [totalOf, hnil]
  rfl

/-- Numbers that fit in 64 bits together are added without a carry. -/
theorem foldl_add_toNat (dv : List MetricsMapValue) (start : UInt64)
    (hfits : start.toNat + (dv.map fun v => (f v).toNat).sum < 2 ^ 64) :
    (dv.foldl (fun sum v => sum + f v) start).toNat = start.toNat + (dv.map fun v => (f v).toNat).sum := by
  induction dv generalizing start with
  | nil => rfl
  | cons v dv ih =>
    rw [List.map_cons, List.sum_cons] at hfits ⊢
    have hadd : (start + f v).toNat = start.toNat + (f v).toNat := by
      rw [UInt64.toNat_add]
      exact Nat.mod_eq_of_lt (by omega)
    rw [List.foldl_cons, ih (start + f v) (by omega), hadd]
    omega

end

theorem foldl_sums (dv : List MetricsMapValue) (sums : UInt64 × UInt64) :
    dv.foldl (fun sums v => (sums.1 + v.count,sums.2 + v.bytes)) sums =
      (dv.foldl (fun sum v => sum + v.count) sums.1,dv.foldl (fun sum v => sum + v.bytes) sums.2) := by
  induction dv generalizing sums with
  | nil => rfl
  | cons v dv ih => exact ih _

theorem getPktCountAndBytes_eq (float64 : ℚ → ℚ) (e : MetricsMapEntry)
    (hcount : e.total MetricsMapValue.count < 2 ^ 64) (hbytes : e.total MetricsMapValue.bytes < 2 ^ 64) :
    getPktCountAndBytes float64 e.values =
      (float64 (e.total MetricsMapValue.count),float64 (e.total MetricsMapValue.bytes)) := by
  have hcount' := foldl_add_toNat MetricsMapValue.count e.values 0 (by simpa [MetricsMapEntry.total] using hcount)
  have hbytes' := foldl_add_toNat MetricsMapValue.bytes e.values 0 (by simpa [MetricsMapEntry.total] using hbytes)
  rw [UInt64.toNat_zero, Nat.zero_add] at hcount' hbytes'
  simp only [getPktCountAndBytes, foldl_sums, hcount', hbytes']
  rfl

/-! ## One pass -/

theorem readBasicMetricsData_append (float64 : ℚ → ℚ) (gauges : DropGauges) (xs ys : List MetricsMapEntry) :
    readBasicMetricsData float64 gauges (xs ++ ys) =
      readBasicMetricsData float64 (readBasicMetricsData float64 gauges xs) ys := List.foldl_append

theorem readBasicMetricsData_cons (float64 : ℚ → ℚ) (gauges : DropGauges) (e : MetricsMapEntry)
    (entries : List MetricsMapEntry) : readBasicMetricsData float64 gauges (e :: entries) =
      readBasicMetricsData float64 (processMapValue float64 gauges e) entries := rfl

/-- A gauge keeps its value while other labels are visited. -/
theorem readBasicMetricsData_of_ne (float64 : ℚ → ℚ) (gauges : DropGauges) {entries : List MetricsMapEntry}
    {labels : GaugeLabels} (h : ∀ e ∈ entries, e.labels ≠ labels) :
    (readBasicMetricsData float64 gauges entries).dropPackets labels = gauges.dropPackets labels ∧
      (readBasicMetricsData float64 gauges entries).dropBytes labels = gauges.dropBytes labels := by
  induction entries generalizing gauges with
  | nil => exact ⟨rfl,rfl⟩
  | cons e entries ih =>
    obtain ⟨hpackets,hbytes⟩ := ih (processMapValue float64 gauges e) fun e' he => h e' (List.mem_cons_of_mem e he)
    have hne : labels ≠ (getType e.key,getDirection e.key) := fun heq => h e List.mem_cons_self heq.symm
    rw [readBasicMetricsData_cons, hpackets, hbytes]
    constructor
    · exact Function.update_of_ne hne _ _
    · exact Function.update_of_ne hne _ _

/-- The entry that is visited last sets the gauges. -/
theorem readBasicMetricsData_last (float64 : ℚ → ℚ) (gauges : DropGauges) (pre : List MetricsMapEntry)
    (e : MetricsMapEntry) {post : List MetricsMapEntry} (h : ∀ e' ∈ post, e'.labels ≠ e.labels) :
    (readBasicMetricsData float64 gauges (pre ++ e :: post)).dropPackets e.labels =
        (getPktCountAndBytes float64 e.values).1 ∧
      (readBasicMetricsData float64 gauges (pre ++ e :: post)).dropBytes e.labels =
        (getPktCountAndBytes float64 e.values).2 := by
  obtain ⟨hpackets,hbytes⟩ := readBasicMetricsData_of_ne float64
    (processMapValue float64 (readBasicMetricsData float64 gauges pre) e) h
  rw [readBasicMetricsData_append, readBasicMetricsData_cons, hpackets, hbytes]
  constructor
  · exact Function.update_self _ _ _
  · exact Function.update_self _ _ _

theorem exists_last {entries : List MetricsMapEntry} {labels : GaugeLabels} (h : ∃ e ∈ entries, e.labels = labels) :
    ∃ pre e post, entries = pre ++ e :: post ∧ e.labels = labels ∧ ∀ e' ∈ post, e'.labels ≠ labels := by
  induction entries using List.reverseRecOn with
  | nil => simp at h
  | append_singleton entries e ih =>
    by_cases he : e.labels = labels
    · exact ⟨entries,e,[],rfl,he,by simp⟩
    · have hrest : ∃ e' ∈ entries, e'.labels = labels := by
        obtain ⟨e',he',hlabels⟩ := h
        rcases List.mem_append.mp he' with hmem | hmem
        · exact ⟨e',hmem,hlabels⟩
        · exact absurd hlabels (by rwa [List.mem_singleton.mp hmem])
      obtain ⟨pre,e',post,rfl,hlabels,hpost⟩ := ih hrest
      refine ⟨pre,e',post ++ [e],by simp,hlabels,fun e'' he'' => ?_⟩
      rcases List.mem_append.mp he'' with hmem | hmem
      · exact hpost e'' hmem
      · rwa [List.mem_singleton.mp hmem]

/-- What the entries ahead of the last one of the same labels hold is what the rounding of the
last one adds, for packets and for bytes: nothing, as long as `float64` is exact. -/
def LastEntryCarriesTotal (float64 : ℚ → ℚ) (entries : List MetricsMapEntry) : Prop :=
  ∀ pre e post, entries = pre ++ e :: post → (∀ e' ∈ post, e'.labels ≠ e.labels) →
    float64 (e.total MetricsMapValue.count) - e.total MetricsMapValue.count =
        totalOf MetricsMapValue.count pre e.labels ∧
      float64 (e.total MetricsMapValue.bytes) - e.total MetricsMapValue.bytes =
        totalOf MetricsMapValue.bytes pre e.labels

theorem totalOf_last (f : MetricsMapValue → UInt64) (pre : List MetricsMapEntry) (e : MetricsMapEntry)
    {post : List MetricsMapEntry} (h : ∀ e' ∈ post, e'.labels ≠ e.labels) :
    totalOf f (pre ++ e :: post) e.labels = totalOf f pre e.labels + e.total f := by
  rw [totalOf_append, totalOf_cons_self, totalOf_eq_zero f h, Nat.add_zero]

theorem float64_eq_totalOf_iff (float64 : ℚ → ℚ) (f : MetricsMapValue → UInt64) (pre : List MetricsMapEntry)
    (e : MetricsMapEntry) {post : List MetricsMapEntry} (h : ∀ e' ∈ post, e'.labels ≠ e.labels) :
    float64 (e.total f) = totalOf f (pre ++ e :: post) e.labels ↔
      float64 (e.total f) - e.total f = totalOf f pre e.labels := by
  rw [totalOf_last f pre e h, Nat.cast_add, sub_eq_iff_eq_add]

/-- The gauges are totals if each reason has its drops under one return value. Labels without
an entry are not written to. -/
theorem drop_gauges_are_totals_iff (float64 : ℚ → ℚ) (entries : List MetricsMapEntry) (before : DropGauges)
    (hfits : ∀ labels, totalOf MetricsMapValue.count entries labels < 2 ^ 64 ∧
      totalOf MetricsMapValue.bytes entries labels < 2 ^ 64)
    (hunset : ∀ labels, (∀ e ∈ entries, e.labels ≠ labels) →
      before.dropPackets labels = 0 ∧ before.dropBytes labels = 0) :
    (∀ labels, (readBasicMetricsData float64 before entries).dropPackets labels =
          totalOf MetricsMapValue.count entries labels ∧
        (readBasicMetricsData float64 before entries).dropBytes labels =
          totalOf MetricsMapValue.bytes entries labels) ↔
      LastEntryCarriesTotal float64 entries := by
  have hlast : ∀ pre e post, entries = pre ++ e :: post → (∀ e' ∈ post, e'.labels ≠ e.labels) →
      (readBasicMetricsData float64 before entries).dropPackets e.labels = float64 (e.total MetricsMapValue.count) ∧
        (readBasicMetricsData float64 before entries).dropBytes e.labels = float64 (e.total MetricsMapValue.bytes) := by
    rintro pre e post rfl hpost
    obtain ⟨hcount,hbytes⟩ := hfits e.labels
    obtain ⟨hpackets,hsizes⟩ := readBasicMetricsData_last float64 before pre e hpost
    rw [totalOf_last _ _ _ hpost] at hcount hbytes
    rw [hpackets, hsizes, getPktCountAndBytes_eq float64 e (by omega) (by omega)]
    exact ⟨rfl,rfl⟩
  constructor
  · intro h pre e post hsplit hpost
    obtain ⟨hpackets,hsizes⟩ := hlast pre e post hsplit hpost
    obtain ⟨hpackets',hsizes'⟩ := h e.labels
    subst hsplit
    constructor
    · exact (float64_eq_totalOf_iff float64 _ pre e hpost).mp (hpackets.symm.trans hpackets')
    · exact (float64_eq_totalOf_iff float64 _ pre e hpost).mp (hsizes.symm.trans hsizes')
  · intro h labels
    by_cases hlabels : ∃ e ∈ entries, e.labels = labels
    · obtain ⟨pre,e,post,hsplit,rfl,hpost⟩ := exists_last hlabels
      obtain ⟨hpackets,hsizes⟩ := hlast pre e post hsplit hpost
      obtain ⟨hcount,hbytes⟩ := h pre e post hsplit hpost
      subst hsplit
      constructor
      · exact hpackets.trans ((float64_eq_totalOf_iff float64 _ pre e hpost).mpr hcount)
      · exact hsizes.trans ((float64_eq_totalOf_iff float64 _ pre e hpost).mpr hbytes)
    · push Not at hlabels
      obtain ⟨hpackets,hsizes⟩ := readBasicMetricsData_of_ne float64 before hlabels
      obtain ⟨hzero,hzero'⟩ := hunset labels hlabels
      rw [hpackets, hsizes, totalOf_eq_zero _ hlabels, totalOf_eq_zero _ hlabels, hzero, hzero']
      simp

def ruleDrops (returnVal : Int32) (count : UInt64) : MetricsMapEntry where
  key := { dropType := 0, returnVal := returnVal }
  values := [{ count := count, bytes := 100 * count },{ count := 0, bytes := 0 }]

def noDrops : DropGauges where
  dropPackets _ := 0
  dropBytes _ := 0

theorem ruleDrops_labels (returnVal : Int32) (count : UInt64) :
    (ruleDrops returnVal count).labels = ("IPTABLE_RULE_DROP","unknown") := by
  have hzero : (0 : UInt16).toNat = 0 := rfl
  simp [MetricsMapEntry.labels, ruleDrops, getDirection, getType, dropReasonString, hzero]

/-- Three drops with one return value and four with another one are reported as four. -/
theorem two_return_values_not_added :
    (readBasicMetricsData id noDrops [ruleDrops (-1) 3,ruleDrops (-105) 4]).dropPackets
        ("IPTABLE_RULE_DROP","unknown") = 4 ∧
      totalOf MetricsMapValue.count [ruleDrops (-1) 3,ruleDrops (-105) 4] ("IPTABLE_RULE_DROP","unknown") = 7 := by
  have hlast : ∀ e ∈ ([] : List MetricsMapEntry), e.labels ≠ (ruleDrops (-105) 4).labels := by simp
  have hgauge := (readBasicMetricsData_last id noDrops [ruleDrops (-1) 3] (ruleDrops (-105) 4) hlast).1
  rw [ruleDrops_labels] at hgauge
  exact ⟨hgauge.trans (by decide +kernel),by decide +kernel⟩

theorem totalOf_ruleDrops_lt (f : MetricsMapValue → UInt64) (hf : (ruleDrops (-1) 7).total f < 2 ^ 64)
    (labels : GaugeLabels) : totalOf f [ruleDrops (-1) 7] labels < 2 ^ 64 := by
  by_cases h : (ruleDrops (-1) 7).labels = labels
  · subst h
    simpa [totalOf] using hf
  · rw [totalOf_eq_zero f (by simpa using h)]
    decide

theorem one_return_value_reported :
    (readBasicMetricsData id noDrops [ruleDrops (-1) 7]).dropPackets ("IPTABLE_RULE_DROP","unknown") =
        totalOf MetricsMapValue.count [ruleDrops (-1) 7] ("IPTABLE_RULE_DROP","unknown") ∧
      (readBasicMetricsData id noDrops [ruleDrops (-1) 7]).dropBytes ("IPTABLE_RULE_DROP","unknown") =
        totalOf MetricsMapValue.bytes [ruleDrops (-1) 7] ("IPTABLE_RULE_DROP","unknown") := by
  have hcarries : LastEntryCarriesTotal id [ruleDrops (-1) 7] := by
    intro pre e post hsplit _
    obtain ⟨rfl,rfl,rfl⟩ : pre = [] ∧ ruleDrops (-1) 7 = e ∧ post = [] := by
      cases pre with
      | nil => simpa [and_comm, eq_comm] using hsplit
      | cons a pre => simp at hsplit
    simp [totalOf]
  have hcount := totalOf_ruleDrops_lt MetricsMapValue.count (by decide +kernel)
  have hbytes := totalOf_ruleDrops_lt MetricsMapValue.bytes (by decide +kernel)
  exact (drop_gauges_are_totals_iff id [ruleDrops (-1) 7] noDrops (fun labels => ⟨hcount labels,hbytes labels⟩)
    fun _ _ => ⟨rfl,rfl⟩).mpr hcarries ("IPTABLE_RULE_DROP","unknown")

end Retina.DropReason
