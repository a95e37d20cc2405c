import Retina.Dns.HeaderChain

/-! # The type of a DNS query

The filter walks over the labels of the first question to the type behind them, in sixty-four
rounds. `handleDNSEvent` of `pkg/plugin/dns/dns_linux.go` takes the type of the filter unless it
is zero, and the type of the decoder otherwise. The decoder of the DNS payload is a parameter.
-/
namespace Retina.Dns

structure DnsQuestion where
  name : String
  qtype : UInt16

/-- What is used of `layers.DNS`. An answer without an address is `none`. -/
structure DnsMessage where
  questions : List DnsQuestion
  answers : List (Option String)

structure DnsInfo where
  srcPort : UInt32
  dstPort : UInt32
  proto : UInt8
  dir : UInt8
  response : Bool
  rcode : UInt32
  dnsName : String
  qType : UInt16
  ancount : UInt16
  addresses : List String

/-- A payload that the decoder rejects, or that makes it panic, is `none`. -/
def parseDNSPayload (decodeFromBytes : List UInt8 → Option DnsMessage) (payload : List UInt8) (isResponse : Bool) :
    String × List String × UInt16 :=
  if payload.length < 12 then ("",[],0)
  else
    match decodeFromBytes payload with
    | none => ("",[],0)
    | some parser =>
      let addresses := if isResponse then parser.answers.filterMap id else []
      match parser.questions with
      | [] => ("",addresses,0)
      | question :: _ => (question.name ++ ".",addresses,question.qtype)

def dirIngress : UInt8 := 2
def dirEgress : UInt8 := 3

def handleDNSEvent (enablePodLevel : Bool) (decodeFromBytes : List UInt8 → Option DnsMessage) (event : DnsEvent)
    (packetData : List UInt8) : Option DnsInfo :=
  if enablePodLevel = false then none
  else if event.af ≠ 4 ∧ event.af ≠ 6 then none
  else
    let parsed :=
      if 0 < packetData.length ∧ event.dnsOff.toNat < packetData.length then
        parseDNSPayload decodeFromBytes (packetData.drop event.dnsOff.toNat) (event.qr == 1)
      else ("",[],0)
    some {
      srcPort := event.srcPort.toUInt32
      dstPort := event.dstPort.toUInt32
      proto := event.proto
      dir := if event.qr = 0 then dirEgress else dirIngress
      response := event.qr != 0
      rcode := event.rcode.toUInt32
      dnsName := parsed.1
      qType := if event.qtype ≠ 0 then event.qtype else parsed.2.2
      ancount := event.ancount
      addresses := parsed.2.1 }

/-! ## Names -/

/-- A name without compression: each label behind its length, and a zero at the end. -/
def labelWire (label : List UInt8) : List UInt8 := label.length.toUInt8 :: label

def nameWire (labels : List (List UInt8)) : List UInt8 := labels.flatMap labelWire ++ [0]

structure ValidName (labels : List (List UInt8)) : Prop where
  label : ∀ l ∈ labels, 1 ≤ l.length ∧ l.length ≤ 63
  octets : (nameWire labels).length ≤ 255

structure QuestionAt (skb : Skb) (off : ℕ) (labels : List (List UInt8)) (qtype : UInt16) : Prop where
  valid : ValidName labels
  name : skb.memory.Holds off (nameWire labels)
  qtype : skb.memory.be16 (off + (nameWire labels).length) = qtype
  fits : off + (nameWire labels).length + 4 ≤ skb.len.toNat

section
variable {skb : Skb}

theorem nameWire_cons (l : List UInt8) (labels : List (List UInt8)) :
    nameWire (l :: labels) = labelWire l ++ nameWire labels := by
  simp [nameWire]

theorem length_nameWire_cons (l : List UInt8) (labels : List (List UInt8)) :
    (nameWire (l :: labels)).length = 1 + l.length + (nameWire labels).length := by
  rw [nameWire_cons, List.length_append, labelWire, List.length_cons]
  omega

theorem nameWire_pos (labels : List (List UInt8)) : 0 < (nameWire labels).length := by
  simp [nameWire]

theorem toNat_labelLen {l : List UInt8} (h : l.length ≤ 63) : l.length.toUInt8.toNat = l.length := by
  rw [Nat.toUInt8, UInt8.toNat_ofNat']
  exact Nat.mod_eq_of_lt (by omega)

theorem labelLen_ne_zero {l : List UInt8} (h : 1 ≤ l.length ∧ l.length ≤ 63) : l.length.toUInt8 ≠ 0 := by
  intro hzero
  have htoNat := toNat_labelLen h.2
  rw [hzero] at htoNat
  exact absurd htoNat.symm (by simp only [UInt8.toNat_zero]; omega)

theorem labelLen_toUInt16 {l : List UInt8} (h : l.length ≤ 63) :
    l.length.toUInt8.toUInt16 = UInt16.ofNat l.length := by
  apply UInt16.toNat_inj.mp
  rw [UInt8.toNat_toUInt16, toNat_labelLen h, ofNat_toNat (by omega)]

/-- One round of the loop, in front of a label. -/
theorem skipLabels_label {off : ℕ} {l : List UInt8} {labels : List (List UInt8)} (i : ℕ)
    (hl : 1 ≤ l.length ∧ l.length ≤ 63) (hname : skb.memory.Holds off (nameWire (l :: labels)))
    (hoff : off < 65536) (hlen : off < skb.len.toNat) :
    skipLabels skb (i + 1) (UInt16.ofNat off) = skipLabels skb i (UInt16.ofNat (off + (1 + l.length))) := by
  rw [nameWire_cons, labelWire] at hname
  have hbyte : skb.memory off = l.length.toUInt8 := hname.1
  rw [skipLabels, ofNat_toNat hoff, if_neg (by omega), loadByte_of_lt hlen]
  simp only [hbyte, if_neg (labelLen_ne_zero hl)]
  rw [labelLen_toUInt16 hl.2, UInt16.ofNat_add, UInt16.ofNat_add]
  rfl

theorem skipLabels_end {off : ℕ} (i : ℕ) (hname : skb.memory.Holds off (nameWire [])) (hoff : off < 65536)
    (hlen : off < skb.len.toNat) : skipLabels skb (i + 1) (UInt16.ofNat off) = some (UInt16.ofNat (off + 1)) := by
  have hbyte : skb.memory off = 0 := hname.1
  rw [skipLabels, ofNat_toNat hoff, if_neg (by omega), loadByte_of_lt hlen]
  simp only [hbyte, if_true, UInt16.ofNat_add]
  rfl

/-- After as many rounds as there are labels to pass over, the rest of the name is left. -/
theorem skipLabels_drop {off fin : ℕ} {labels : List (List UInt8)} (n : ℕ) (hn : n ≤ labels.length)
    (hvalid : ∀ l ∈ labels, 1 ≤ l.length ∧ l.length ≤ 63) (hname : skb.memory.Holds off (nameWire labels))
    (hfin : off + (nameWire labels).length = fin) (hbound : fin < 65536) (hlen : fin ≤ skb.len.toNat) :
    ∃ mid, mid + (nameWire (labels.drop n)).length = fin ∧ skb.memory.Holds mid (nameWire (labels.drop n)) ∧
      ∀ i, skipLabels skb (n + i) (UInt16.ofNat off) = skipLabels skb i (UInt16.ofNat mid) := by
  induction n generalizing off labels with
  | zero => exact ⟨off,hfin,hname,fun i => by rw [Nat.zero_add]⟩
  | succ n ih =>
    cases labels with
    | nil => simp at hn
    | cons l labels =>
      have hl := hvalid l List.mem_cons_self
      have hsize := length_nameWire_cons l labels
      have hpos := nameWire_pos labels
      have hrest : skb.memory.Holds (off + (1 + l.length)) (nameWire labels) := by
        rw [nameWire_cons, Memory.holds_append, labelWire, List.length_cons, Nat.add_comm l.length] at hname
        exact hname.2
      obtain ⟨mid,hmid,hholds,hloop⟩ := ih (by simpa using hn) (fun l' h => hvalid l' (List.mem_cons_of_mem l h))
        hrest (by omega)
      refine ⟨mid,hmid,hholds,fun i => ?_⟩
      rw [Nat.add_right_comm, skipLabels_label (n + i) hl hname (by omega) (by omega)]
      exact hloop i

/-- The value that the filter reads behind its last round, for a question with the given name and type. -/
def storedType (labels : List (List UInt8)) (qtype : UInt16) : UInt16 :=
  if labels.length < 64 then qtype
  else
    match labels[64]? with
    | none => join16 0 (highByte qtype)
    | some l => join16 l.length.toUInt8 (l.headD 0)

theorem questionType_of_skipLabels {dnsOff : UInt16} {off : ℕ}
    (h : skipLabels skb 64 (dnsOff + UInt16.ofNat sizeofDnshdr) = some (UInt16.ofNat off)) (hoff : off < 65536)
    (hlen : off + 2 ≤ skb.len.toNat) : questionType skb dnsOff = skb.memory.be16 off := by
  simp only [questionType, h, ofNat_toNat hoff, if_pos hlen, loadHalf_of_le hlen, Option.getD_some]

theorem questionType_eq {dnsOff : UInt16} {labels : List (List UInt8)} {qtype : UInt16}
    (h : QuestionAt skb (dnsOff.toNat + sizeofDnshdr) labels qtype) (hoff : dnsOff.toNat ≤ 12404) :
    questionType skb dnsOff = storedType labels qtype := by
  have hoctets := h.valid.octets
  have hfits := h.fits
  have hstart : dnsOff + UInt16.ofNat sizeofDnshdr = UInt16.ofNat (dnsOff.toNat + sizeofDnshdr) := by
    rw [UInt16.ofNat_add, UInt16.ofNat_toNat]
  have hqtype := h.qtype
  simp only [sizeofDnshdr] at hfits
  generalize hfin : dnsOff.toNat + sizeofDnshdr + (nameWire labels).length = fin at hqtype
  simp only [sizeofDnshdr] at hfin
  have hbound : fin < 65536 := by omega
  rw [storedType]
  split_ifs with hshort
  · -- the loop comes to the zero behind the last label
    obtain ⟨mid,hmid,hholds,hloop⟩ := skipLabels_drop labels.length le_rfl h.valid.label h.name hfin hbound (by omega)
    rw [List.drop_length] at hmid hholds
    obtain ⟨i,hi⟩ : ∃ i, 64 = labels.length + (i + 1) := ⟨63 - labels.length,by omega⟩
    have hend : mid + 1 = fin := hmid
    have hskip : skipLabels skb 64 (dnsOff + UInt16.ofNat sizeofDnshdr) = some (UInt16.ofNat fin) := by
      rw [hstart, hi, hloop, skipLabels_end i hholds (by omega) (by omega), hend]
    rw [questionType_of_skipLabels hskip hbound (by omega), hqtype]
  · -- the rounds end before the name does, and what stands there is taken for the type
    obtain ⟨mid,hmid,hholds,hloop⟩ := skipLabels_drop 64 (by omega) h.valid.label h.name hfin hbound (by omega)
    have hpos := nameWire_pos (labels.drop 64)
    have hskip : skipLabels skb 64 (dnsOff + UInt16.ofNat sizeofDnshdr) = some (UInt16.ofNat mid) := by
      rw [hstart]
      exact hloop 0
    rw [questionType_of_skipLabels hskip (by omega) (by omega), Memory.be16, ← List.head?_drop]
    cases hdrop : labels.drop 64 with
    | nil =>
      rw [hdrop] at hmid hholds
      have hend : mid + 1 = fin := hmid
      rw [hend, hholds.1, ← hqtype, Memory.be16, List.head?_nil, highByte_join16]
    | cons l rest =>
      rw [hdrop, nameWire_cons, labelWire] at hholds
      have hl := h.valid.label l (List.mem_of_mem_drop (by rw [hdrop]; exact List.mem_cons_self))
      cases l with
      | nil => simp at hl
      | cons b l =>
        rw [hholds.1, hholds.2.1]
        rfl

/-- The loop comes to the end of the name, or what it reads in place of the type is the same or
zero: the first byte of a type in front of which one label was left out, or the length and the
first byte of the sixty-fifth label. -/
def TypeReached (labels : List (List UInt8)) (qtype : UInt16) : Prop :=
  labels.length < 64 ∨ (labels.length = 64 ∧ highByte qtype = 0) ∨
    ∃ l, labels[64]? = some l ∧ qtype = join16 l.length.toUInt8 (l.headD 0)

theorem storedType_right_iff {labels : List (List UInt8)} (hvalid : ValidName labels) (qtype : UInt16) :
    (storedType labels qtype = qtype ∨ storedType labels qtype = 0) ↔ TypeReached labels qtype := by
  have hzero : (0 : UInt16) = join16 0 0 := by decide
  unfold storedType TypeReached
  split_ifs with hshort
  · exact ⟨fun _ => Or.inl hshort,fun _ => Or.inl rfl⟩
  · cases hl : labels[64]? with
    | none =>
      have hlen : labels.length = 64 := by
        have := List.getElem?_eq_none_iff.mp hl
        omega
      constructor
      · rintro (h | h)
        · refine Or.inr (Or.inl ⟨hlen,?_⟩)
          rw [← h, highByte_join16]
        · rw [hzero, join16_inj] at h
          exact Or.inr (Or.inl ⟨hlen,h.2⟩)
      · rintro (h | ⟨_,h⟩ | ⟨l,h,_⟩)
        · exact absurd h hshort
        · exact Or.inr (by rw [h, ← hzero])
        · exact absurd h (by simp)
    | some l =>
      have hne := labelLen_ne_zero (hvalid.label l (List.mem_of_getElem? hl))
      have hlong := (List.getElem?_eq_some_iff.mp hl).1
      constructor
      · rintro (h | h)
        · exact Or.inr (Or.inr ⟨l,rfl,h.symm⟩)
        · rw [hzero, join16_inj] at h
          exact absurd h.1 hne
      · rintro (h | ⟨h,_⟩ | ⟨l',h,hq⟩)
        · exact absurd h hshort
        · omega
        · cases h
          exact Or.inl hq.symm

/-! ## The type that is reported -/

theorem fillDnsHeader_of_fits {dnsOff : UInt16} (e : DnsEvent) (h : dnsOff.toNat + sizeofDnshdr ≤ skb.len.toNat) :
    (fillDnsHeader skb dnsOff e).qtype = questionType skb dnsOff ∧ (fillDnsHeader skb dnsOff e).af = e.af := by
  rw [sizeofDnshdr] at h
  simp only [fillDnsHeader, loadByte_of_lt (by omega : dnsOff.toNat + 2 < skb.len.toNat),
    loadByte_of_lt (by omega : dnsOff.toNat + 3 < skb.len.toNat), and_self]

theorem NetworkHeaders.etherType {proto : UInt8} {off : ℕ} (h : NetworkHeaders skb proto off) :
    etherType skb = ethPIp ∨ etherType skb = ethPIpv6 := by
  cases h with
  | ipv4 h => exact Or.inl h
  | ipv6 h _ _ => exact Or.inr h

theorem fillAddresses_af {hProto : UInt16} (e : DnsEvent) (h : hProto = ethPIp ∨ hProto = ethPIpv6) :
    (fillAddresses skb hProto e).af = 4 ∨ (fillAddresses skb hProto e).af = 6 := by
  unfold fillAddresses
  split_ifs with hip hip6
  · exact Or.inl rfl
  · exact Or.inr rfl
  · exact absurd h (by simp [hip, hip6])

theorem fillEvent_dnsOff (bootNs : UInt64) (skb : Skb) (hProto : UInt16) (proto : UInt8) (sport dport dnsOff : UInt16) :
    (fillEvent bootNs skb hProto proto sport dport dnsOff).dnsOff = dnsOff :=
  (fillDnsHeader_header skb dnsOff (fillAddresses skb hProto _)).2.2.2.trans
    (fillAddresses_header skb hProto _).2.2.2

theorem retinaDnsFilter_qtype {bootNs : UInt64} {e : DnsEvent} (h : retinaDnsFilter bootNs skb = some e) :
    e.qtype = questionType skb e.dnsOff ∧ (e.af = 4 ∨ e.af = 6) ∧ e.dnsOff.toNat ≤ 12404 ∧
      e.dnsOff.toNat + sizeofDnshdr ≤ skb.len.toNat := by
  obtain ⟨_,off,hspells,_,hdescribes⟩ := retinaDnsFilter_sound h
  have hle := hspells.headers.le
  have hdnsLe := (dnsHeader_le skb e.proto off).2
  have hbound : e.dnsOff.toNat ≤ 12404 := by
    rw [hdescribes.dnsOff]
    omega
  obtain ⟨_,proto,l4Off,dnsOff,_,_,_,_,hfits,rfl⟩ := retinaDnsFilter_inv h
  rw [fillEvent_dnsOff] at hbound ⊢
  refine ⟨(fillDnsHeader_of_fits _ hfits).1,?_,hbound,hfits⟩
  rw [fillEvent, (fillDnsHeader_of_fits _ hfits).2]
  exact fillAddresses_af _ hspells.headers.etherType

def Skb.bytes (skb : Skb) : List UInt8 := (List.range skb.len.toNat).map skb.memory

def DecodesType (decodeFromBytes : List UInt8 → Option DnsMessage) (payload : List UInt8) (qtype : UInt16) : Prop :=
  ∃ message question rest, decodeFromBytes payload = some message ∧ message.questions = question :: rest ∧
    question.qtype = qtype

theorem handleDNSEvent_qType {decodeFromBytes : List UInt8 → Option DnsMessage} {e : DnsEvent} {data : List UInt8}
    {qtype : UInt16} (haf : e.af = 4 ∨ e.af = 6) (hlen : e.dnsOff.toNat + 12 ≤ data.length)
    (hdecode : DecodesType decodeFromBytes (data.drop e.dnsOff.toNat) qtype) :
    ∃ info, handleDNSEvent true decodeFromBytes e data = some info ∧
      info.qType = if e.qtype ≠ 0 then e.qtype else qtype := by
  obtain ⟨message,question,rest,hmessage,hquestions,rfl⟩ := hdecode
  have hpayload : ¬(data.drop e.dnsOff.toNat).length < 12 := by
    rw [List.length_drop]
    omega
  have hfamily : ¬(e.af ≠ 4 ∧ e.af ≠ 6) := fun h => haf.elim h.1 h.2
  rw [handleDNSEvent, if_neg (by decide), if_neg hfamily]
  refine ⟨_,rfl,?_⟩
  simp only [if_pos (show 0 < data.length ∧ e.dnsOff.toNat < data.length by omega), parseDNSPayload,
    if_neg hpayload, hmessage, hquestions]

end

/-- The type is right if the name has at most sixty-three labels, and otherwise only by chance. -/
theorem retinaDnsFilter_qtype_right_iff (bootNs : UInt64) (skb : Skb) (e : DnsEvent)
    (decodeFromBytes : List UInt8 → Option DnsMessage) (labels : List (List UInt8)) (qtype : UInt16)
    (hemits : retinaDnsFilter bootNs skb = some e)
    (hquestion : QuestionAt skb (e.dnsOff.toNat + sizeofDnshdr) labels qtype)
    (hdecode : DecodesType decodeFromBytes (skb.bytes.drop e.dnsOff.toNat) qtype) :
    ((e.qtype = qtype ∨ e.qtype = 0) ∧
      ∃ info, handleDNSEvent true decodeFromBytes e skb.bytes = some info ∧ info.qType = qtype) ↔
    TypeReached labels qtype := by
  obtain ⟨hqtype,haf,hoff,hfits⟩ := retinaDnsFilter_qtype hemits
  rw [questionType_eq hquestion hoff] at hqtype
  rw [← storedType_right_iff hquestion.valid qtype, ← hqtype]
  have hlen : e.dnsOff.toNat + 12 ≤ skb.bytes.length := by simpa [Skb.bytes, sizeofDnshdr] using hfits
  obtain ⟨info,hinfo,htype⟩ := handleDNSEvent_qType haf hlen hdecode
  refine ⟨And.left,fun h => ⟨h,info,hinfo,?_⟩⟩
  rcases h with h | h
  · rw [htype, h]
    split_ifs <;> rfl
  · rw [htype, if_neg (by simp [h])]

def longNameFrame : List UInt8 :=
  [2,0,0,0,0,1,2,0,0,0,0,2,8,0,
   0x45,0,0,175,0,0,0,0,64,17,0x66,0x3C,10,0,0,1,10,0,0,2,
   0x9C,0x40,0,53,0,155,0,0,
   0,1,1,0,0,1,0,0,0,0,0,0]
  ++ nameWire (List.replicate 65 [97]) ++ [0,1,0,1]

def decodesAddress (_ : List UInt8) : Option DnsMessage :=
  some { questions := [{ name := "", qtype := 1 }], answers := [] }

theorem spellsDns_longNameFrame : SpellsDns (frameSkb longNameFrame 0) ipprotoUdp 34 where
  headers := .ipv4 (by decide +kernel)
  transport := Or.inl rfl
  port := Or.inr (by decide +kernel)

theorem questionAt_longNameFrame : QuestionAt (frameSkb longNameFrame 0) 54 (List.replicate 65 [97]) 1 where
  valid := ⟨by decide +kernel,by decide +kernel⟩
  name := by decide +kernel
  qtype := by decide +kernel
  fits := by decide +kernel

theorem decodesType_decodesAddress (payload : List UInt8) : DecodesType decodesAddress payload 1 :=
  ⟨_,_,[],rfl,rfl,rfl⟩

/-- The length of the last label and its letter are taken for the type. -/
theorem retinaDnsFilter_longName : ∃ e, retinaDnsFilter 0 (frameSkb longNameFrame 0) = some e ∧
    QuestionAt (frameSkb longNameFrame 0) (e.dnsOff.toNat + sizeofDnshdr) (List.replicate 65 [97]) 1 ∧
    e.qtype = 353 ∧ ∃ info, handleDNSEvent true decodesAddress e (frameSkb longNameFrame 0).bytes = some info ∧
      info.qType = 353 := by
  obtain ⟨e,he,hdescribes⟩ := retinaDnsFilter_complete 0 (by decide +kernel) spellsDns_longNameFrame
    (show DnsHeaderFits (frameSkb longNameFrame 0) ipprotoUdp 34 by unfold DnsHeaderFits; decide +kernel)
  obtain ⟨hqtype,haf,hoff,hfits⟩ := retinaDnsFilter_qtype he
  have hdnsOff : e.dnsOff.toNat = 42 := hdescribes.dnsOff
  have hquestion : QuestionAt (frameSkb longNameFrame 0) (e.dnsOff.toNat + sizeofDnshdr) (List.replicate 65 [97]) 1 := by
    rw [hdnsOff]
    exact questionAt_longNameFrame
  have hstored : e.qtype = 353 := by
    rw [hqtype, questionType_eq hquestion hoff]
    decide +kernel
  have hlen : e.dnsOff.toNat + 12 ≤ (frameSkb longNameFrame 0).bytes.length := by
    simpa [Skb.bytes, sizeofDnshdr] using hfits
  obtain ⟨info,hinfo,htype⟩ := handleDNSEvent_qType haf hlen (decodesType_decodesAddress _)
  refine ⟨e,he,hquestion,hstored,info,hinfo,?_⟩
  rw [htype, hstored]
  rfl

def shortNameFrame : List UInt8 :=
  [2,0,0,0,0,1,2,0,0,0,0,2,8,0,
   0x45,0,0,49,0,0,0,0,64,17,0x66,0xBA,10,0,0,1,10,0,0,2,
   0x9C,0x40,0,53,0,29,0,0,
   0,1,1,0,0,1,0,0,0,0,0,0]
  ++ nameWire [[97],[98]] ++ [0,1,0,1]

theorem retinaDnsFilter_shortName : ∃ e, retinaDnsFilter 0 (frameSkb shortNameFrame 0) = some e ∧
    (e.qtype = 1 ∨ e.qtype = 0) ∧
      ∃ info, handleDNSEvent true decodesAddress e (frameSkb shortNameFrame 0).bytes = some info ∧ info.qType = 1 :=
  ⟨_,rfl,(retinaDnsFilter_qtype_right_iff 0 (frameSkb shortNameFrame 0) _ decodesAddress [[97],[98]] 1 rfl
    ⟨⟨by decide,by decide⟩,by decide,by decide,by decide⟩
    (decodesType_decodesAddress _)).mpr (Or.inl (by decide))⟩

end Retina.Dns
