import Retina.Library.Bytes

/-! # The walk over the options of a TCP header

`parse_tcp_ts` of `pkg/plugin/packetparser/_cprog/packetparser.c`. The loop has a fixed number
of rounds, and each round reads the bytes of one option behind two bounds: the end of the
header, by its length field, and the end of the packet. The addresses that a round reads are
recorded with its result.
-/
namespace Retina.PacketParser

inductive OptionRound
  | giveUp
  | found (tsval tsecr : UInt32)
  | next (cur : ℕ)

def maxTcpOptionsLen : ℕ := 40

def tcpDoff (m : Memory) (tcph : ℕ) : UInt8 := m (tcph + 12) >>> 4

def optionRound (m : Memory) (tcpOptEnd dataEnd cur : ℕ) : List ℕ × OptionRound :=
  if tcpOptEnd < cur + 1 ∨ dataEnd < cur + 1 then ([],.giveUp)
  else if m cur = 0 then ([cur],.giveUp)
  else if m cur = 1 then ([cur],.next (cur + 1))
  else if tcpOptEnd < cur + 2 ∨ dataEnd < cur + 2 then ([cur],.giveUp)
  else if m (cur + 1) < 2 then ([cur,cur + 1],.giveUp)
  else if m cur = 8 ∧ m (cur + 1) = 10 then
    if tcpOptEnd < cur + 10 ∨ dataEnd < cur + 10 then ([cur,cur + 1],.giveUp)
    else (List.range' cur 10,.found (swap32 (m.le32 (cur + 2))) (swap32 (m.le32 (cur + 6))))
  else ([cur,cur + 1],.next (cur + (m (cur + 1)).toNat))

def optionLoop (m : Memory) (tcpOptEnd dataEnd : ℕ) : ℕ → ℕ → List ℕ × Option (UInt32 × UInt32)
  | 0, _ => ([],none)
  | i + 1, cur =>
    match optionRound m tcpOptEnd dataEnd cur with
    | (reads,.giveUp) => (reads,none)
    | (reads,.found tsval tsecr) => (reads,some (tsval,tsecr))
    | (reads,.next cur') =>
      (reads ++ (optionLoop m tcpOptEnd dataEnd i cur').1,(optionLoop m tcpOptEnd dataEnd i cur').2)

/-- What `parse_tcp_ts` returns and leaves behind its two pointers, with the addresses of the
options that it read. -/
structure TcpTs where
  ret : ℤ
  tsval : UInt32
  tsecr : UInt32
  reads : List ℕ

def parseTcpTs (m : Memory) (tcph dataEnd : ℕ) (tsval tsecr : UInt32) : TcpTs :=
  let tcpHeaderLen := tcpDoff m tcph <<< 2
  if tcpHeaderLen ≤ 20 then ⟨-1,tsval,tsecr,[]⟩
  else if dataEnd < tcph + 1 then ⟨-1,tsval,tsecr,[]⟩
  else
    match optionLoop m (tcph + tcpHeaderLen.toNat) dataEnd maxTcpOptionsLen (tcph + 20) with
    | (reads,none) => ⟨-1,tsval,tsecr,reads⟩
    | (reads,some (v,e)) => ⟨0,v,e,reads⟩

/-! ## The walk of the protocol -/

inductive OptionWalk (m : Memory) (bound : ℕ) : ℕ → ℕ → Prop
  | here (cur : ℕ) : OptionWalk m bound cur cur
  | noOperation {cur last : ℕ} (hbound : cur + 1 ≤ bound) (hkind : m cur = 1)
      (hrest : OptionWalk m bound (cur + 1) last) : OptionWalk m bound cur last
  | skip {cur last : ℕ} (hbound : cur + 2 ≤ bound) (hend : m cur ≠ 0) (hkind : m cur ≠ 1)
      (hlen : 2 ≤ (m (cur + 1)).toNat) (hfits : cur + (m (cur + 1)).toNat ≤ bound)
      (hrest : OptionWalk m bound (cur + (m (cur + 1)).toNat) last) : OptionWalk m bound cur last

structure IsTimestamp (m : Memory) (bound cur : ℕ) : Prop where
  fits : cur + 10 ≤ bound
  kind : m cur = 8
  length : m (cur + 1) = 10

structure FirstTimestamp (m : Memory) (bound start cur : ℕ) : Prop where
  reached : OptionWalk m bound start cur
  timestamp : IsTimestamp m bound cur
  first : ∀ c, OptionWalk m bound start c → IsTimestamp m bound c → cur ≤ c

section
variable {m : Memory} {bound : ℕ}

theorem OptionWalk.le {cur last : ℕ} (h : OptionWalk m bound cur last) : cur ≤ last := by
  induction h with
  | here => exact le_rfl
  | noOperation _ _ _ ih => omega
  | skip _ _ _ hlen _ _ ih => omega

theorem OptionWalk.inv {cur last : ℕ} (h : OptionWalk m bound cur last) :
    last = cur ∨ (cur + 1 ≤ bound ∧ m cur = 1 ∧ OptionWalk m bound (cur + 1) last) ∨
      (cur + 2 ≤ bound ∧ m cur ≠ 0 ∧ m cur ≠ 1 ∧ 2 ≤ (m (cur + 1)).toNat ∧
        cur + (m (cur + 1)).toNat ≤ bound ∧ OptionWalk m bound (cur + (m (cur + 1)).toNat) last) := by
  cases h with
  | here => exact Or.inl rfl
  | noOperation hbound hkind hrest => exact Or.inr (Or.inl ⟨hbound,hkind,hrest⟩)
  | skip hbound hend hkind hlen hfits hrest => exact Or.inr (Or.inr ⟨hbound,hend,hkind,hlen,hfits,hrest⟩)

/-- A walk that stops at an option with time stamps, or passes it over. -/
theorem OptionWalk.eq_or_skip {cur last : ℕ} (h : OptionWalk m bound cur last) (hkind : m cur ≠ 1) :
    last = cur ∨ (2 ≤ (m (cur + 1)).toNat ∧ cur + (m (cur + 1)).toNat ≤ bound ∧
      OptionWalk m bound (cur + (m (cur + 1)).toNat) last) := by
  rcases h.inv with heq | ⟨_,hone,_⟩ | ⟨_,_,_,hlen,hfits,hrest⟩
  · exact Or.inl heq
  · exact absurd hone hkind
  · exact Or.inr ⟨hlen,hfits,hrest⟩

theorem FirstTimestamp.here {cur : ℕ} (h : IsTimestamp m bound cur) : FirstTimestamp m bound cur cur :=
  ⟨.here cur,h,fun _ hwalk _ => hwalk.le⟩

theorem FirstTimestamp.unique {start a b : ℕ} (ha : FirstTimestamp m bound start a)
    (hb : FirstTimestamp m bound start b) : a = b :=
  le_antisymm (ha.first b hb.reached hb.timestamp) (hb.first a ha.reached ha.timestamp)

/-- The walk goes to one place only from an option that is not the one looked for. -/
theorem FirstTimestamp.congr {start start' cur : ℕ}
    (h : ∀ c, IsTimestamp m bound c → (OptionWalk m bound start c ↔ OptionWalk m bound start' c)) :
    FirstTimestamp m bound start cur ↔ FirstTimestamp m bound start' cur := by
  constructor
  · rintro ⟨hreached,htimestamp,hfirst⟩
    exact ⟨(h cur htimestamp).mp hreached,htimestamp,fun c hc ht => hfirst c ((h c ht).mpr hc) ht⟩
  · rintro ⟨hreached,htimestamp,hfirst⟩
    exact ⟨(h cur htimestamp).mpr hreached,htimestamp,fun c hc ht => hfirst c ((h c ht).mp hc) ht⟩

end

/-! ## One round and the whole loop -/

def OptionRound.Follows (m : Memory) (bound cur : ℕ) : OptionRound → Prop
  | .giveUp => ∀ c, OptionWalk m bound cur c → ¬IsTimestamp m bound c
  | .found tsval tsecr => IsTimestamp m bound cur ∧ tsval = m.be32 (cur + 2) ∧ tsecr = m.be32 (cur + 6)
  | .next cur' => cur < cur' ∧
      ∀ c, IsTimestamp m bound c → (OptionWalk m bound cur c ↔ OptionWalk m bound cur' c)

theorem optionRound_follows (m : Memory) (tcpOptEnd dataEnd cur : ℕ) :
    (optionRound m tcpOptEnd dataEnd cur).2.Follows m (min tcpOptEnd dataEnd) cur := by
  simp only [optionRound, ← min_lt_iff, Memory.swap32_le32]
  generalize min tcpOptEnd dataEnd = bound
  split_ifs with hbound hend hnop hpair hlen hts hfits
  · intro c hwalk hc
    have := hwalk.le
    have := hc.fits
    omega
  · intro c hwalk hc
    rcases hwalk.inv with rfl | ⟨_,hone,_⟩ | ⟨_,hne,_⟩
    · simp [hc.kind] at hend
    · simp [hone] at hend
    · exact hne hend
  · refine ⟨Nat.lt_succ_self cur,fun c hc => ⟨fun hwalk => ?_,.noOperation (by omega) hnop⟩⟩
    rcases hwalk.inv with rfl | ⟨_,_,hrest⟩ | ⟨_,_,hne,_⟩
    · simp [hc.kind] at hnop
    · exact hrest
    · exact absurd hnop hne
  · intro c hwalk hc
    have := hwalk.le
    have := hc.fits
    omega
  · intro c hwalk hc
    have hlen' : (m (cur + 1)).toNat < 2 := UInt8.lt_iff_toNat_lt.mp hlen
    rcases hwalk.eq_or_skip hnop with rfl | ⟨hge,_⟩
    · simp [hc.length] at hlen'
    · omega
  · intro c hwalk hc
    have hten : (m (cur + 1)).toNat = 10 := by simp [hts.2]
    rcases hwalk.eq_or_skip hnop with rfl | ⟨_,hfits',_⟩
    · exact absurd hc.fits (by omega)
    · omega
  · exact ⟨⟨by omega,hts.1,hts.2⟩,rfl,rfl⟩
  · have hlen' : 2 ≤ (m (cur + 1)).toNat := by
      have hge := mt UInt8.lt_iff_toNat_lt.mpr hlen
      exact not_lt.mp hge
    refine ⟨by omega,fun c hc => ⟨fun hwalk => ?_,fun hwalk => ?_⟩⟩
    · rcases hwalk.eq_or_skip hnop with rfl | ⟨_,_,hrest⟩
      · exact absurd ⟨hc.kind,hc.length⟩ hts
      · exact hrest
    · have := hwalk.le
      have := hc.fits
      exact .skip (by omega) hend hnop hlen' (by omega) hwalk

theorem optionRound_reads_lt (m : Memory) (tcpOptEnd dataEnd cur : ℕ) :
    ∀ a ∈ (optionRound m tcpOptEnd dataEnd cur).1, a < min tcpOptEnd dataEnd := by
  simp only [optionRound, ← min_lt_iff]
  generalize min tcpOptEnd dataEnd = bound
  intro a ha
  split_ifs at ha with hbound hend hnop hpair hlen hts hfits <;>
    simp only [List.mem_cons, List.mem_range'_1, List.not_mem_nil, or_false] at ha <;> omega

def CarriesTimestamps (m : Memory) (bound start : ℕ) (ts : UInt32 × UInt32) : Prop :=
  ∃ cur, FirstTimestamp m bound start cur ∧ ts = (m.be32 (cur + 2),m.be32 (cur + 6))

theorem CarriesTimestamps.unique {m : Memory} {bound start : ℕ} {ts ts' : UInt32 × UInt32}
    (h : CarriesTimestamps m bound start ts) (h' : CarriesTimestamps m bound start ts') : ts = ts' := by
  obtain ⟨cur,hcur,rfl⟩ := h
  obtain ⟨cur',hcur',rfl⟩ := h'
  rw [hcur.unique hcur']

/-- Each round moves on by a byte at least, so the rounds left cover the bytes left. -/
theorem optionLoop_eq_some (m : Memory) (tcpOptEnd dataEnd : ℕ) (ts : UInt32 × UInt32) (i cur : ℕ)
    (hrounds : min tcpOptEnd dataEnd ≤ cur + i) :
    (optionLoop m tcpOptEnd dataEnd i cur).2 = some ts ↔
      CarriesTimestamps m (min tcpOptEnd dataEnd) cur ts := by
  induction i generalizing cur with
  | zero =>
    refine ⟨fun h => absurd h (by simp [optionLoop]),?_⟩
    rintro ⟨c,hc,_⟩
    have := hc.reached.le
    have := hc.timestamp.fits
    omega
  | succ i ih =>
    have hround := optionRound_follows m tcpOptEnd dataEnd cur
    rw [optionLoop]
    generalize optionRound m tcpOptEnd dataEnd cur = round at hround
    rcases round with ⟨reads,_ | ⟨tsval,tsecr⟩ | cur'⟩
    · refine ⟨fun h => absurd h (by simp),?_⟩
      rintro ⟨c,hc,_⟩
      exact absurd hc.timestamp (hround c hc.reached)
    · obtain ⟨hts,rfl,rfl⟩ := hround
      have hhere : CarriesTimestamps m (min tcpOptEnd dataEnd) cur (m.be32 (cur + 2),m.be32 (cur + 6)) :=
        ⟨cur,.here hts,rfl⟩
      refine ⟨fun h => ?_,fun h => congrArg some (hhere.unique h)⟩
      rwa [← Option.some_inj.mp h]
    · obtain ⟨hlt,hwalk⟩ := hround
      refine (ih cur' (by omega)).trans (exists_congr fun c => and_congr_left fun _ => ?_)
      exact (FirstTimestamp.congr hwalk).symm

theorem optionLoop_reads_lt (m : Memory) (tcpOptEnd dataEnd i cur : ℕ) :
    ∀ a ∈ (optionLoop m tcpOptEnd dataEnd i cur).1, a < min tcpOptEnd dataEnd := by
  induction i generalizing cur with
  | zero => simp [optionLoop]
  | succ i ih =>
    have hround := optionRound_reads_lt m tcpOptEnd dataEnd cur
    rw [optionLoop]
    generalize optionRound m tcpOptEnd dataEnd cur = round at hround
    rcases round with ⟨reads,_ | _ | cur'⟩
    · exact hround
    · exact hround
    · intro a ha
      rcases List.mem_append.mp ha with ha | ha
      · exact hround a ha
      · exact ih cur' a ha

/-! ## The function -/

theorem tcpDoff_lt (m : Memory) (tcph : ℕ) : (tcpDoff m tcph).toNat < 16 := by
  have hbyte := (m (tcph + 12)).toNat_lt
  have hshift : (tcpDoff m tcph).toNat = (m (tcph + 12)).toNat / 2 ^ 4 := by
    rw [tcpDoff, UInt8.toNat_shiftRight, Nat.shiftRight_eq_div_pow]
    rfl
  omega

theorem toNat_tcpHeaderLen (m : Memory) (tcph : ℕ) :
    (tcpDoff m tcph <<< 2).toNat = 4 * (tcpDoff m tcph).toNat := by
  have hdoff := tcpDoff_lt m tcph
  have hshift : (tcpDoff m tcph <<< 2).toNat = (tcpDoff m tcph).toNat * 2 ^ 2 % 2 ^ 8 := by
    rw [UInt8.toNat_shiftLeft, Nat.shiftLeft_eq]
    rfl
  omega

/-- The end of the options: the length field and the end of the packet both bound them. -/
def tcpOptionsEnd (m : Memory) (tcph dataEnd : ℕ) : ℕ := min (tcph + 4 * (tcpDoff m tcph).toNat) dataEnd

theorem parseTcpTs_reads_lt (m : Memory) (tcph dataEnd : ℕ) (tsval tsecr : UInt32) :
    ∀ a ∈ (parseTcpTs m tcph dataEnd tsval tsecr).reads, a < tcpOptionsEnd m tcph dataEnd := by
  have hloop := optionLoop_reads_lt m (tcph + (tcpDoff m tcph <<< 2).toNat) dataEnd maxTcpOptionsLen (tcph + 20)
  rw [toNat_tcpHeaderLen] at hloop
  simp only [parseTcpTs, toNat_tcpHeaderLen, tcpOptionsEnd]
  split_ifs
  · simp
  · simp
  · split <;> simp_all

/-- The checks ahead of the loop turn away only headers without room for an option. -/
theorem parseTcpTs_eq (m : Memory) (tcph dataEnd : ℕ) (tsval tsecr : UInt32) :
    (∃ ts, CarriesTimestamps m (tcpOptionsEnd m tcph dataEnd) (tcph + 20) ts ∧
      (parseTcpTs m tcph dataEnd tsval tsecr).ret = 0 ∧
      (parseTcpTs m tcph dataEnd tsval tsecr).tsval = ts.1 ∧
      (parseTcpTs m tcph dataEnd tsval tsecr).tsecr = ts.2) ∨
    ((∀ ts, ¬CarriesTimestamps m (tcpOptionsEnd m tcph dataEnd) (tcph + 20) ts) ∧
      (parseTcpTs m tcph dataEnd tsval tsecr).ret = -1 ∧
      (parseTcpTs m tcph dataEnd tsval tsecr).tsval = tsval ∧
      (parseTcpTs m tcph dataEnd tsval tsecr).tsecr = tsecr) := by
  have hdoff := tcpDoff_lt m tcph
  have hlen := toNat_tcpHeaderLen m tcph
  have hshort : tcpOptionsEnd m tcph dataEnd ≤ tcph + 20 →
      ∀ ts, ¬CarriesTimestamps m (tcpOptionsEnd m tcph dataEnd) (tcph + 20) ts := by
    rintro hle ts ⟨cur,hcur,_⟩
    have := hcur.reached.le
    have := hcur.timestamp.fits
    omega
  have hloop : ∀ ts, (optionLoop m (tcph + 4 * (tcpDoff m tcph).toNat) dataEnd maxTcpOptionsLen (tcph + 20)).2 =
      some ts ↔ CarriesTimestamps m (tcpOptionsEnd m tcph dataEnd) (tcph + 20) ts := by
    intro ts
    apply optionLoop_eq_some
    simp only [maxTcpOptionsLen]
    omega
  simp only [parseTcpTs, hlen]
  split_ifs with hheader hdata
  · refine Or.inr ⟨hshort ?_,rfl,rfl,rfl⟩
    have hle : (tcpDoff m tcph <<< 2).toNat ≤ 20 := UInt8.le_iff_toNat_le.mp hheader
    exact (min_le_left _ _).trans (by omega)
  · exact Or.inr ⟨hshort ((min_le_right _ _).trans (by omega)),rfl,rfl,rfl⟩
  · generalize optionLoop m (tcph + 4 * (tcpDoff m tcph).toNat) dataEnd maxTcpOptionsLen (tcph + 20) = result
      at hloop ⊢
    rcases result with ⟨reads,_ | ts⟩
    · refine Or.inr ⟨fun ts hts => ?_,rfl,rfl,rfl⟩
      exact absurd ((hloop ts).mpr hts) (by simp)
    · exact Or.inl ⟨ts,(hloop ts).mp rfl,rfl,rfl,rfl⟩

theorem exists_carriesTimestamps {m : Memory} {bound start : ℕ} :
    (∃ ts, CarriesTimestamps m bound start ts) ↔
      ∃ cur, OptionWalk m bound start cur ∧ IsTimestamp m bound cur := by
  constructor
  · rintro ⟨_,cur,hcur,_⟩
    exact ⟨cur,hcur.reached,hcur.timestamp⟩
  · intro h
    classical
    refine ⟨_,Nat.find h,⟨(Nat.find_spec h).1,(Nat.find_spec h).2,fun c hc ht => ?_⟩,rfl⟩
    exact Nat.find_min' h ⟨hc,ht⟩

/-- The fixed number of rounds never cuts the walk short. -/
theorem parseTcpTs_walks_options (m : Memory) (tcph dataEnd : ℕ) (tsval tsecr : UInt32) :
    let bound := min (tcph + 4 * (tcpDoff m tcph).toNat) dataEnd
    let out := parseTcpTs m tcph dataEnd tsval tsecr
    (∀ a ∈ out.reads, a < bound) ∧
    (out.ret = 0 ↔ ∃ cur, OptionWalk m bound (tcph + 20) cur ∧ IsTimestamp m bound cur) ∧
    (∀ cur, FirstTimestamp m bound (tcph + 20) cur →
      out.tsval = m.be32 (cur + 2) ∧ out.tsecr = m.be32 (cur + 6)) ∧
    (out.ret ≠ 0 → out.ret = -1 ∧ out.tsval = tsval ∧ out.tsecr = tsecr) := by
  intro bound out
  refine ⟨parseTcpTs_reads_lt m tcph dataEnd tsval tsecr,?_⟩
  rw [← exists_carriesTimestamps]
  rcases parseTcpTs_eq m tcph dataEnd tsval tsecr with ⟨ts,hts,hret,hval,hecr⟩ | ⟨hnone,hret,hval,hecr⟩
  · refine ⟨⟨fun _ => ⟨ts,hts⟩,fun _ => hret⟩,fun cur hcur => ?_,fun hne => absurd hret hne⟩
    have heq : ts = (m.be32 (cur + 2),m.be32 (cur + 6)) := hts.unique ⟨cur,hcur,rfl⟩
    exact ⟨hval.trans (congrArg Prod.fst heq),hecr.trans (congrArg Prod.snd heq)⟩
  · refine ⟨⟨fun hzero => absurd (hret.symm.trans hzero) (by decide),fun ⟨ts,hts⟩ => absurd hts (hnone ts)⟩,?_,
      fun _ => ⟨hret,hval,hecr⟩⟩
    exact fun cur hcur => absurd ⟨cur,hcur,rfl⟩ (hnone _)

end Retina.PacketParser
