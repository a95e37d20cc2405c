import Retina.Filter.Requests
import Retina.Library.Execution
import Retina.Trace.Addresses

/-! # The filter cache as a set of requests

`pkg/managers/filtermanager/cache.go` for any `net.IP`, that is for any slice of bytes. The keys of the cache are the texts
of addresses. A slice of four bytes has the text of the slice of sixteen bytes that begins with
the prefix for IPv4, and no other two slices have the same text; a text is therefore given by these
bytes. Only the text of sixteen bytes is one that `net.ParseIP` reads back.
-/
namespace Retina.Filter
open Trace (IP v4InV6Prefix)

structure IPText where
  bytes : List UInt8
deriving DecidableEq

def ipString (ip : IP) : IPText := ⟨if ip.length = 4 then v4InV6Prefix ++ ip else ip⟩

/-- `net.ParseIP`, which is nil if the text is not that of an address. -/
def parseIP (text : IPText) : IP := if text.bytes.length = 16 then text.bytes else []

def FilterCache.netIPs (f : FilterCache IPText) (order : FiniteMap.Order IPText) : List IP := (f.ips order).map parseIP

inductive RequestOp where
  | addIP (ip : IP) (r : Requestor) (m : RequestMetadata)
  | deleteIP (ip : IP) (r : Requestor) (m : RequestMetadata)
  | reset

def FilterCache.step (f : FilterCache IPText) : RequestOp → FilterCache IPText
  | .addIP ip r m => f.addIP (ipString ip) r m
  | .deleteIP ip r m => (f.deleteIP (ipString ip) r m).1
  | .reset => f.reset

def filterCacheAfter (ops : List RequestOp) : FilterCache IPText := Execution.run FilterCache.step {} ops

/-! ## The set -/

structure Triple where
  ip : IPText
  r : Requestor
  m : RequestMetadata
deriving DecidableEq

def requestStep (held : Finset Triple) : RequestOp → Finset Triple
  | .addIP ip r m => insert ⟨ipString ip,r,m⟩ held
  | .deleteIP ip r m => held.erase ⟨ipString ip,r,m⟩
  | .reset => ∅

def requestsAfter (ops : List RequestOp) : Finset Triple := Execution.run requestStep ∅ ops

def Represents (f : FilterCache IPText) (held : Finset Triple) : Prop := ∀ t : Triple, f.Holds t.ip t.r t.m ↔ t ∈ held

theorem represents_empty : Represents {} ∅ := by
  intro t
  simp [FilterCache.Holds]

theorem Represents.step {f : FilterCache IPText} {held : Finset Triple} (h : Represents f held) (op : RequestOp) :
    Represents (f.step op) (requestStep held op) := by
  rintro ⟨ip',r',m'⟩
  have hf := h ⟨ip',r',m'⟩
  cases op with
  | addIP ip r m =>
    rw [FilterCache.step, requestStep, FilterCache.holds_addIP, Finset.mem_insert, hf, Triple.mk.injEq]
    exact or_comm
  | deleteIP ip r m =>
    rw [FilterCache.step, requestStep, FilterCache.holds_deleteIP, Finset.mem_erase, hf, ne_eq, Triple.mk.injEq]
    exact and_comm
  | reset =>
    rw [FilterCache.step, requestStep]
    exact iff_of_false (f.not_holds_reset ip' r' m') (Finset.notMem_empty _)

theorem represents_after (ops : List RequestOp) : Represents (filterCacheAfter ops) (requestsAfter ops) := by
  suffices h : ∀ (f : FilterCache IPText) (held : Finset Triple), Represents f held →
      Represents (Execution.run FilterCache.step f ops) (Execution.run requestStep held ops) from
    h {} ∅ represents_empty
  induction ops with
  | nil => exact fun f held h => h
  | cons op ops ih => exact fun f held h => ih _ _ (h.step op)

/-! ## The list of addresses -/

def IPText.WellFormed (text : IPText) : Prop := text.bytes.length = 0 ∨ text.bytes.length = 16

instance (text : IPText) : Decidable text.WellFormed := inferInstanceAs (Decidable (_ ∨ _))

theorem wellFormed_ipString_iff (ip : IP) :
    (ipString ip).WellFormed ↔ ip.length = 0 ∨ ip.length = 4 ∨ ip.length = 16 := by
  simp only [IPText.WellFormed, ipString]
  by_cases h : ip.length = 4
  · simp [h, v4InV6Prefix]
  · simp [h]

/-- The texts that `net.ParseIP` reads back are those of addresses. -/
theorem ipString_parseIP_eq_iff (text : IPText) : ipString (parseIP text) = text ↔ text.WellFormed := by
  obtain ⟨bytes⟩ := text
  simp only [ipString, parseIP, IPText.WellFormed, IPText.mk.injEq]
  by_cases h : bytes.length = 16
  · simp [h]
  · simp [h, eq_comm]

theorem wellFormed_parsed (text : IPText) : (ipString (parseIP text)).WellFormed := by
  rw [wellFormed_ipString_iff, parseIP]
  split
  · next h => exact .inr (.inr h)
  · exact .inl rfl

def ListsOnce (held : Finset Triple) (ips : List IP) : Prop :=
  (ips.map ipString).Nodup ∧ ∀ text, text ∈ ips.map ipString ↔ ∃ r m, ⟨text,r,m⟩ ∈ held

theorem Represents.mem_ips {f : FilterCache IPText} {held : Finset Triple} (h : Represents f held)
    (order : FiniteMap.Order IPText) (text : IPText) : text ∈ f.ips order ↔ ∃ r m, ⟨text,r,m⟩ ∈ held := by
  rw [FilterCache.mem_ips, FilterCache.hasKey_iff]
  exact exists_congr fun r => exists_congr fun m => h ⟨text,r,m⟩

theorem Represents.listsOnce_iff {f : FilterCache IPText} {held : Finset Triple} (h : Represents f held)
    (order : FiniteMap.Order IPText) : ListsOnce held (f.netIPs order) ↔ ∀ t ∈ held, t.ip.WellFormed := by
  have hlist : (f.netIPs order).map ipString = (f.ips order).map fun text => ipString (parseIP text) := by
    rw [FilterCache.netIPs, List.map_map]
    rfl
  rw [ListsOnce, hlist]
  constructor
  · rintro ⟨-,hmem⟩ ⟨text,r,m⟩ ht
    -- What is listed is the text of something that was parsed.
    obtain ⟨text',-,rfl⟩ := List.mem_map.mp ((hmem text).mpr ⟨r,m,ht⟩)
    exact wellFormed_parsed text'
  · intro hgood
    have hid : (f.ips order).map (fun text => ipString (parseIP text)) = f.ips order := by
      conv_rhs => rw [← List.map_id (f.ips order)]
      apply List.map_congr_left
      intro text htext
      obtain ⟨r,m,ht⟩ := (h.mem_ips order text).mp htext
      exact (ipString_parseIP_eq_iff text).mpr (hgood _ ht)
    rw [hid]
    exact ⟨order.nodup_list _,h.mem_ips order⟩

/-- What is listed for a text: an address with this text, or nil if there is none. -/
def ListedFor (text : IPText) (ip : IP) : Prop := if text.WellFormed then ipString ip = text else ip = []

theorem listedFor_parseIP (text : IPText) : ListedFor text (parseIP text) := by
  unfold ListedFor
  split_ifs with h
  · exact (ipString_parseIP_eq_iff text).mpr h
  · exact if_neg fun hlength => h (.inr hlength)

theorem FilterCache.listedFor_netIPs (f : FilterCache IPText) (order : FiniteMap.Order IPText) :
    List.Forall₂ ListedFor (f.ips order) (f.netIPs order) := by
  rw [FilterCache.netIPs, List.forall₂_map_right_iff]
  exact List.forall₂_same.mpr fun text _ => listedFor_parseIP text

/-! ## The cache refines the set -/

structure RefinesRequests (ops : List RequestOp) : Prop where
  represents : ∀ ip r m, (filterCacheAfter ops).Holds ip r m ↔ ⟨ip,r,m⟩ ∈ requestsAfter ops
  noneEmpty : (filterCacheAfter ops).data.NoneEmpty
  hasKey : ∀ ip, (filterCacheAfter ops).hasKey (ipString ip) = true ↔ ∃ r m, ⟨ipString ip,r,m⟩ ∈ requestsAfter ops
  ips : ∀ order, ListsOnce (requestsAfter ops) ((filterCacheAfter ops).netIPs order) ↔
    ∀ t ∈ requestsAfter ops, t.ip.WellFormed
  listed : ∀ order, ∃ texts : List IPText, texts.Nodup ∧ (∀ text, text ∈ texts ↔ ∃ r m, ⟨text,r,m⟩ ∈ requestsAfter ops) ∧
    List.Forall₂ ListedFor texts ((filterCacheAfter ops).netIPs order)
  deleteIP : ∀ ip r m, ((filterCacheAfter ops).deleteIP (ipString ip) r m).2 = true ↔
    ⟨ipString ip,r,m⟩ ∈ requestsAfter ops ∧
      ∀ r' m', ⟨ipString ip,r',m'⟩ ∉ requestStep (requestsAfter ops) (.deleteIP ip r m)

theorem filter_cache_refines_requests (ops : List RequestOp) : RefinesRequests ops := by
  have h := represents_after ops
  refine ⟨fun ip r m => h ⟨ip,r,m⟩,(filterCacheAfter ops).noneEmpty,?_,h.listsOnce_iff,?_,?_⟩
  · intro ip
    rw [FilterCache.hasKey_iff]
    exact exists_congr fun r => exists_congr fun m => h ⟨ipString ip,r,m⟩
  · intro order
    exact ⟨(filterCacheAfter ops).ips order,order.nodup_list _,h.mem_ips order,
      (filterCacheAfter ops).listedFor_netIPs order⟩
  · intro ip r m
    rw [FilterCache.deleteIP_eq_true_iff, h ⟨ipString ip,r,m⟩]
    refine and_congr_right fun _ => forall₂_congr fun r' m' => ?_
    rw [h ⟨ipString ip,r',m'⟩, requestStep, Finset.mem_erase, ne_eq, Triple.mk.injEq]
    tauto

/-- A slice of three bytes is not listed: the cache answers with nil. -/
theorem malformed_ip_listed_as_nil :
    (filterCacheAfter [.addIP [1,2,3] "r" ⟨"m"⟩]).hasKey (ipString [1,2,3]) = true ∧
      (filterCacheAfter [.addIP [1,2,3] "r" ⟨"m"⟩]).netIPs (FiniteMap.Order.arbitrary IPText) = [[]] ∧
      ipString [] ≠ ipString [1,2,3] := by
  have hkeys : (filterCacheAfter [.addIP [1,2,3] "r" ⟨"m"⟩]).data.keys = {ipString [1,2,3]} := by decide +kernel
  refine ⟨by decide +kernel,?_,by decide⟩
  rw [FilterCache.netIPs, FilterCache.ips, hkeys, FiniteMap.Order.list_singleton]
  decide

end Retina.Filter
