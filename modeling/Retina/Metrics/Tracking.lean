import Retina.Metrics.PodEvents
import Retina.Library.Execution

/-! # Pods come and go

The cache changes at once and publishes its events from goroutines of their own. The
events that are still to be delivered are those in `published`, and any of them may be
the next. An event that tells of a deletion is checked against the cache when it
arrives; one that tells of an addition is not.
-/
namespace Retina.Metrics
open Cache (NetIP RetinaEndpoint CacheEvent isIPV4)
open Retina.Filter

structure PlainPod (ep : RetinaEndpoint) (ip : NetIP) : Prop where
  ips : ep.ips = some { ipv4 := ip }
  v4 : isIPV4 ip = true
  notAPIServer : NotAPIServer ep

namespace PlainPod
variable {ep : RetinaEndpoint} {ip ip' : NetIP}

theorem ne_nil (h : PlainPod ep ip) : ip ≠ .nil := by
  rintro rfl
  exact Bool.false_ne_true h.v4

theorem ipList (h : PlainPod ep ip) : ep.ipList = [ip] := by
  simp [RetinaEndpoint.ipList, Cache.CacheObject.ips, RetinaEndpoint.getIPs, h.ips, Cache.IPAddresses.getIPs, h.ne_nil,
    Except.toOption]

theorem primaryNetIP (h : PlainPod ep ip) : ep.primaryNetIP = .ok ip := by
  simp [RetinaEndpoint.primaryNetIP, h.ips, Cache.IPAddresses.primaryNetIP, h.ne_nil]

theorem unique (h : PlainPod ep ip) (h' : PlainPod ep ip') : ip = ip' := by
  have heq := h.primaryNetIP.symm.trans h'.primaryNetIP
  exact Except.ok.inj heq

end PlainPod

structure Tracker where
  c : Cache := {}
  m : Module

inductive TrackerOp where
  | update (ep : RetinaEndpoint)
  | delete (key : String)
  | handle (i : ℕ)
  | tick (env : Surroundings)

def About (e : CacheEvent) (ip : NetIP) : Prop := ∃ ep, e.obj = .endpoint ep ∧ PlainPod ep ip

def Settles (c : Cache) (ip : NetIP) (e : CacheEvent) : Prop :=
  About e ip ∧ (e.type = .podDeleted ∧ c.getPodByIP ip = none ∨ e.type = .podAdded ∧ c.getPodByIP ip ≠ none)

namespace Tracker

/-- Nothing happens between the lookups of `PodCallBackFn` and its mark. -/
def step (s : Tracker) : TrackerOp → Tracker
  | .update ep => { s with c := (s.c.updateEndpoint ep).1 }
  | .delete key => { s with c := (s.c.deleteEndpoint key).1 }
  | .handle i =>
    match s.c.published[i]? with
    | none => s
    | some e => { c := { s.c with published := s.c.published.eraseIdx i }, m := s.m.podCallBackFn s.c e }
  | .tick env => { s with m := s.m.applyDirtyPods env }

def Agrees (s : Tracker) (ep : RetinaEndpoint) (ip : NetIP) : Prop :=
  (∃ q, s.c.getPodByIP ip = some q ∧ s.m.ofInterest q = s.m.ofInterest ep) ∧
    (s.m.ofInterest ep = true ∨ s.m.filterManager.hasIP ip = true ∨ ip ∉ s.m.dirtyPods.toAdd)

/-- An addition is delivered while it agrees with the cache, or before another event that settles the address. -/
def Timely (s : Tracker) : TrackerOp → Prop
  | .update ep => (∃ ip, PlainPod ep ip) ∧ s.c.KeepsIPs ep
  | .delete _ => True
  | .handle i => ∀ ep ip, s.c.published[i]? = some ⟨.podAdded,.endpoint ep⟩ → PlainPod ep ip →
      s.Agrees ep ip ∨ ∃ e ∈ s.c.published.eraseIdx i, Settles s.c ip e
  | .tick env => Accepts env.answers

end Tracker

/-! ## The cache -/

structure PlainCache (c : Cache) : Prop where
  indexed : c.PodsIndexed
  exact : c.Exact
  plain : ∀ key ep, c.epMap.lookup key = some ep → ∃ ip, PlainPod ep ip

namespace PlainCache
variable {c : Cache} (hc : PlainCache c)
include hc

theorem getPodByIP_iff (ip : NetIP) (ep : RetinaEndpoint) :
    c.getPodByIP ip = some ep ↔ PlainPod ep ip ∧ ∃ key, c.epMap.lookup key = some ep := by
  constructor
  · intro h
    obtain ⟨key,hkey,hip⟩ := hc.exact.getPodByIP_eq_some h
    obtain ⟨ip',hplain⟩ := hc.plain key ep hkey
    rw [hplain.ipList, List.mem_singleton] at hip
    exact ⟨hip ▸ hplain,key,hkey⟩
  · rintro ⟨hplain,key,hkey⟩
    exact hc.indexed.getPodByIP hkey (by simp [hplain.ipList])

theorem store {c' : Cache} {ep : RetinaEndpoint} {ip : NetIP} (hep : PlainPod ep ip) (hkeep : c.KeepsIPs ep)
    (hclear : c.Cleared ep.key ep.ipList c') : PlainCache (c'.store (.endpoint ep)) := by
  have hfiled : ep.ipList ≠ [] := by simp [hep.ipList]
  refine ⟨hclear.podsIndexed_store hfiled,hclear.exact_store hc.exact hkeep,?_⟩
  intro key q hq
  rcases hclear.epMap_store hq with rfl | ⟨hq,-⟩
  · exact ⟨ip,hep⟩
  · exact hc.plain key q hq

theorem getPodByIP_store {c' : Cache} {ep : RetinaEndpoint} {ip : NetIP} (hep : PlainPod ep ip)
    (hkeep : c.KeepsIPs ep) (hclear : c.Cleared ep.key ep.ipList c') (ip' : NetIP) :
    (c'.store (.endpoint ep)).getPodByIP ip' = if ip' = ip then some ep else c.getPodByIP ip' := by
  have hstored := hc.store hep hkeep hclear
  by_cases hip : ip' = ip
  · rw [if_pos hip, hstored.getPodByIP_iff, hip]
    exact ⟨hep,ep.key,by rw [Cache.epMap_store, if_pos rfl]⟩
  rw [if_neg hip]
  apply Option.ext
  intro q
  rw [hstored.getPodByIP_iff, hc.getPodByIP_iff]
  refine and_congr_right fun hq => exists_congr fun key => ?_
  constructor
  · intro hkey
    rcases hclear.epMap_store hkey with rfl | ⟨hkey,-⟩
    · exact absurd (hq.unique hep) hip
    · exact hkey
  · intro hkey
    have hfree : ∀ a ∈ ep.ipList, a ∉ q.ipList := by
      simp only [hep.ipList, hq.ipList, List.mem_singleton]
      rintro a rfl heq
      exact hip heq.symm
    have hne : key ≠ ep.key := by
      intro heq
      have hin : ip' ∈ q.ipList := by simp [hq.ipList]
      exact hfree ip' (hkeep q (heq ▸ hkey) ip' hin) hin
    rw [Cache.epMap_store, if_neg hne]
    exact hclear.lookup_of_free hc.exact hkey hfree

theorem update {ep : RetinaEndpoint} {ip : NetIP} (hep : PlainPod ep ip) (hkeep : c.KeepsIPs ep) :
    PlainCache (c.updateEndpoint ep).1 ∧
    (∀ ip', (c.updateEndpoint ep).1.getPodByIP ip' = if ip' = ip then some ep else c.getPodByIP ip') ∧
    ∃ gone, (c.updateEndpoint ep).1.published = c.published ++ gone ++ [⟨.podAdded,.endpoint ep⟩] ∧
      ∀ e ∈ gone, c.TellsRemoval e := by
  have hfiled : ep.ipList ≠ [] := by simp [hep.ipList]
  obtain ⟨c',heq,hclear⟩ := hc.indexed.updateEndpoint hfiled
  rw [heq]
  exact ⟨hc.store hep hkeep hclear,hc.getPodByIP_store hep hkeep hclear,hclear.published_store⟩

theorem delete (key : String) : (c.deleteEndpoint key).1 = c ∨ ∃ ep ip, PlainPod ep ip ∧
    PlainCache (c.deleteEndpoint key).1 ∧
    (∀ ip', (c.deleteEndpoint key).1.getPodByIP ip' = if ip' = ip then none else c.getPodByIP ip') ∧
    (c.deleteEndpoint key).1.published = c.published ++ [⟨.podDeleted,.endpoint ep⟩] := by
  rcases hc.indexed.deleteEndpoint key with ⟨-,heq⟩ | ⟨ep,hkey,heq⟩
  · exact .inl (congrArg Prod.fst heq)
  · obtain ⟨ip,hep⟩ := hc.plain key ep hkey
    have hplain : PlainCache (c.remove key (.endpoint ep)) := by
      refine ⟨hc.indexed.remove hkey,hc.exact.remove hkey,?_⟩
      intro k q hq
      rw [Cache.epMap_remove] at hq
      split at hq
      · cases hq
      · exact hc.plain k q hq
    rw [heq]
    refine .inr ⟨ep,ip,hep,hplain,?_,rfl⟩
    intro ip'
    apply Option.ext
    intro q
    rw [hplain.getPodByIP_iff]
    simp only [Cache.epMap_remove]
    by_cases hip : ip' = ip
    · rw [if_pos hip]
      refine iff_of_false ?_ (by simp)
      rintro ⟨hq,k,hk⟩
      split at hk
      · cases hk
      · next hne =>
        have hin : ip' ∈ q.ipList := by simp [hq.ipList]
        exact hne (hc.indexed.eq_of_mem hk hin hkey (by simp [hep.ipList, hip]))
    · rw [if_neg hip, hc.getPodByIP_iff]
      refine and_congr_right fun hq => exists_congr fun k => ?_
      split
      · next hk =>
        subst hk
        refine iff_of_false (by simp) ?_
        intro hq'
        rw [hkey, Option.some.injEq] at hq'
        exact hip (hq.unique (hq' ▸ hep))
      · exact Iff.rfl

end PlainCache

/-! ## One step -/

/-- Each address is about to be held as the cache wants it, or an event that settles it is still to come. -/
structure Tracks (m₀ : Module) (s : Tracker) : Prop where
  cache : PlainCache s.c
  events : ∀ e ∈ s.c.published, (e.type = .podAdded ∨ e.type = .podDeleted) ∧ ∃ ip, About e ip
  orderly : s.m.Orderly
  interest : s.m.ofInterest = m₀.ofInterest
  settled : ∀ ip, (s.m.WillHold ip ↔ ∃ ep, s.c.getPodByIP ip = some ep ∧ m₀.ofInterest ep = true) ∨
    ∃ e ∈ s.c.published, Settles s.c ip e

theorem About.unique {e : CacheEvent} {ip ip' : NetIP} (h : About e ip) (h' : About e ip') : ip = ip' := by
  obtain ⟨ep,hobj,hep⟩ := h
  obtain ⟨ep',hobj',hep'⟩ := h'
  rw [hobj, Cache.CacheObject.endpoint.injEq] at hobj'
  exact hep.unique (hobj' ▸ hep')

theorem mem_eraseIdx_of_ne {α : Type*} {l : List α} {i : ℕ} {a b : α} (ha : l[i]? = some a) (hb : b ∈ l) (hne : b ≠ a) :
    b ∈ l.eraseIdx i := by
  obtain ⟨j,hj⟩ := List.mem_iff_getElem?.mp hb
  refine List.mem_eraseIdx_iff_getElem?.mpr ⟨j,?_,hj⟩
  rintro rfl
  rw [ha, Option.some.injEq] at hj
  exact hne hj.symm

namespace Tracks
variable {m₀ : Module} {s : Tracker} (hs : Tracks m₀ s)
include hs

theorem update {ep : RetinaEndpoint} (h : s.Timely (.update ep)) : Tracks m₀ (s.step (.update ep)) := by
  obtain ⟨⟨ip,hep⟩,hkeep⟩ := h
  obtain ⟨hcache,hget,gone,hpub,hgone⟩ := hs.cache.update hep hkeep
  refine ⟨hcache,?_,hs.orderly,hs.interest,?_⟩
  · intro e he
    simp only [Tracker.step, hpub, List.mem_append, List.mem_singleton] at he
    rcases he with (he | he) | rfl
    · exact hs.events e he
    · obtain ⟨htype,key,q,hq,hobj⟩ := hgone e he
      obtain ⟨ip',hplain⟩ := hs.cache.plain key q hq
      exact ⟨.inr htype,ip',q,hobj,hplain⟩
    · exact ⟨.inl rfl,ip,ep,rfl,hep⟩
  · intro ip'
    simp only [Tracker.step, Settles, hget, hpub]
    by_cases hip : ip' = ip
    · exact .inr ⟨⟨.podAdded,.endpoint ep⟩,by simp,⟨ep,rfl,hip ▸ hep⟩,.inr ⟨rfl,by simp [hip]⟩⟩
    · simp only [if_neg hip]
      refine (hs.settled ip').imp_right ?_
      rintro ⟨e,he,hsettles⟩
      exact ⟨e,by simp [he],hsettles⟩

theorem delete (key : String) : Tracks m₀ (s.step (.delete key)) := by
  rcases hs.cache.delete key with heq | ⟨ep,ip,hep,hcache,hget,hpub⟩
  · simpa only [Tracker.step, heq] using hs
  · refine ⟨hcache,?_,hs.orderly,hs.interest,?_⟩
    · intro e he
      simp only [Tracker.step, hpub, List.mem_append, List.mem_singleton] at he
      rcases he with he | rfl
      · exact hs.events e he
      · exact ⟨.inr rfl,ip,ep,rfl,hep⟩
    · intro ip'
      simp only [Tracker.step, Settles, hget, hpub]
      by_cases hip : ip' = ip
      · exact .inr ⟨⟨.podDeleted,.endpoint ep⟩,by simp,⟨ep,rfl,hip ▸ hep⟩,.inl ⟨rfl,by simp [hip]⟩⟩
      · simp only [if_neg hip]
        refine (hs.settled ip').imp_right ?_
        rintro ⟨e,he,hsettles⟩
        exact ⟨e,by simp [he],hsettles⟩

/-- An event that is delivered says nothing of other addresses. -/
theorem deliver {i : ℕ} {type : Cache.EventType} {ep : RetinaEndpoint} {ip : NetIP} (hep : PlainPod ep ip)
    (hi : s.c.published[i]? = some ⟨type,.endpoint ep⟩) {m : Module} (horderly : m.Orderly)
    (hinterest : m.ofInterest = s.m.ofInterest) (hsame : ∀ ip', ip' ≠ ip → (m.WillHold ip' ↔ s.m.WillHold ip'))
    (hthis : (m.WillHold ip ↔ ∃ q, s.c.getPodByIP ip = some q ∧ m₀.ofInterest q = true) ∨
      ∃ e ∈ s.c.published.eraseIdx i, Settles s.c ip e) :
    Tracks m₀ { c := { s.c with published := s.c.published.eraseIdx i }, m := m } := by
  refine ⟨⟨hs.cache.indexed.withPublished _,hs.cache.exact,hs.cache.plain⟩,
    fun e he => hs.events e (List.mem_of_mem_eraseIdx he),horderly,hinterest.trans hs.interest,?_⟩
  intro ip'
  by_cases hip : ip' = ip
  · subst hip
    exact hthis
  · rw [hsame ip' hip]
    refine (hs.settled ip').imp_right ?_
    rintro ⟨e,he,hsettles⟩
    refine ⟨e,mem_eraseIdx_of_ne hi he ?_,hsettles⟩
    rintro rfl
    exact hip (hsettles.1.unique ⟨ep,rfl,hep⟩)

theorem handleAdded {i : ℕ} {ep : RetinaEndpoint} {ip : NetIP} (hep : PlainPod ep ip)
    (hi : s.c.published[i]? = some ⟨.podAdded,.endpoint ep⟩)
    (h : s.Agrees ep ip ∨ ∃ e ∈ s.c.published.eraseIdx i, Settles s.c ip e) :
    Tracks m₀ { c := { s.c with published := s.c.published.eraseIdx i }
                m := s.m.podCallBackFn s.c ⟨.podAdded,.endpoint ep⟩ } := by
  obtain ⟨horderly,hsame,hadd,hskip⟩ :=
    Module.podCallBackFn_added (c := s.c) hs.orderly hep.primaryNetIP hep.notAPIServer hep.v4
  refine hs.deliver hep hi horderly (by rw [Module.podCallBackFn_frame]; rfl) hsame ?_
  refine h.imp_left ?_
  rintro ⟨⟨q,hq,hagree⟩,hdone⟩
  rw [← hs.interest]
  by_cases hof : s.m.ofInterest ep = true
  · exact iff_of_true (hadd hof) ⟨q,hq,hagree.trans hof⟩
  · rw [Bool.not_eq_true] at hof
    refine iff_of_false (hskip hof (hdone.resolve_left (by simp [hof]))) ?_
    rintro ⟨q',hq',hof'⟩
    rw [hq, Option.some.injEq] at hq'
    rw [← hq', hagree, hof] at hof'
    cases hof'

theorem handleDeleted {i : ℕ} {ep : RetinaEndpoint} {ip : NetIP} (hep : PlainPod ep ip)
    (hi : s.c.published[i]? = some ⟨.podDeleted,.endpoint ep⟩) :
    Tracks m₀ { c := { s.c with published := s.c.published.eraseIdx i }
                m := s.m.podCallBackFn s.c ⟨.podDeleted,.endpoint ep⟩ } := by
  obtain ⟨horderly,hsame,hgone,hreused⟩ :=
    Module.podCallBackFn_deleted (c := s.c) hs.orderly hep.primaryNetIP hep.notAPIServer
  refine hs.deliver hep hi horderly (by rw [Module.podCallBackFn_frame]; rfl) hsame ?_
  by_cases hnone : s.c.getPodByIP ip = none
  · refine .inl (iff_of_false (hgone hnone) ?_)
    rintro ⟨q,hq,-⟩
    rw [hnone] at hq
    cases hq
  · rw [hreused hnone]
    refine (hs.settled ip).imp_right ?_
    rintro ⟨e,he,hsettles⟩
    refine ⟨e,mem_eraseIdx_of_ne hi he ?_,hsettles⟩
    rintro rfl
    rcases hsettles.2 with ⟨-,hget⟩ | ⟨htype,-⟩
    · exact hnone hget
    · cases htype

theorem handle {i : ℕ} (h : s.Timely (.handle i)) : Tracks m₀ (s.step (.handle i)) := by
  cases hi : s.c.published[i]? with
  | none => simpa only [Tracker.step, hi] using hs
  | some e =>
    obtain ⟨htype,ip,ep,hobj,hep⟩ := hs.events e (List.mem_of_getElem? hi)
    obtain ⟨type,obj⟩ := e
    simp only at htype hobj
    subst hobj
    simp only [Tracker.step, hi]
    rcases htype with rfl | rfl
    · exact hs.handleAdded hep hi (h ep ip hi hep)
    · exact hs.handleDeleted hep hi

theorem tick {env : Surroundings} (henv : Accepts env.answers) : Tracks m₀ (s.step (.tick env)) := by
  obtain ⟨horderly,hdirty,hheld⟩ := Module.applyDirtyPods_spec hs.orderly henv
  have hwill : ∀ ip, (s.m.applyDirtyPods env).WillHold ip ↔ s.m.WillHold ip := by
    intro ip
    rw [← hheld, Module.WillHold, hdirty]
    simp [Finmap.notMem_empty]
  refine ⟨hs.cache,hs.events,horderly,?_,?_⟩
  · rw [Tracker.step, Module.applyDirtyPods_frame]
    exact hs.interest
  · intro ip
    simp only [Tracker.step, hwill]
    exact hs.settled ip

theorem step {op : TrackerOp} (h : s.Timely op) : Tracks m₀ (s.step op) := by
  cases op with
  | update ep => exact hs.update h
  | delete key => exact hs.delete key
  | handle i => exact hs.handle h
  | tick env => exact hs.tick h

end Tracks

structure Module.Idle (m : Module) : Prop where
  working : m.filterManager.Working
  dirty : m.dirtyPods = {}
  requests : ∀ ip md, ¬m.Requested ip md

theorem Module.Idle.orderly {m : Module} (hm : m.Idle) : m.Orderly where
  working := hm.working
  toAdd := by simp [hm.dirty]
  toDelete := by simp [hm.dirty]
  apart ip hip := by
    rw [hm.dirty] at hip
    exact absurd hip Finmap.notMem_empty
  kinds ip md h := absurd h (hm.requests ip md)

theorem Module.Idle.tracks {m : Module} (hm : m.Idle) : Tracks m { m := m } where
  cache := ⟨Cache.podsIndexed_empty,Cache.exact_empty,by simp⟩
  events := by simp
  orderly := hm.orderly
  interest := rfl
  settled ip := by
    refine .inl (iff_of_false ?_ (by simp [Cache.getPodByIP]))
    rintro (hin | ⟨-,md,h⟩)
    · rw [hm.dirty] at hin
      exact absurd hin Finmap.notMem_empty
    · exact hm.requests ip md h

/-- Once all events are delivered, a tick leaves the module with the addresses of the pods that it wants. -/
theorem tracking_converges (m : Module) (hm : m.Idle) (ops : List TrackerOp)
    (hops : Execution.Along Tracker.step Tracker.Timely { m := m } ops)
    (hdelivered : (Execution.run Tracker.step { m := m } ops).c.published = []) (env : Surroundings)
    (henv : Accepts env.answers) (ip : NetIP) :
    ((Execution.run Tracker.step { m := m } ops).m.applyDirtyPods env).Held ip ↔
      ∃ ep, (Execution.run Tracker.step { m := m } ops).c.getPodByIP ip = some ep ∧ m.ofInterest ep = true := by
  have hs : Tracks m (Execution.run Tracker.step { m := m } ops) :=
    Execution.invariant (P := Tracker.Timely) (fun _ _ hs h => hs.step h) hm.tracks hops
  rw [(Module.applyDirtyPods_spec hs.orderly henv).2.2]
  refine (hs.settled ip).resolve_right ?_
  rintro ⟨e,he,-⟩
  rw [hdelivered] at he
  cases he

section Sample

def includingModule : Module := { includedNamespaces := {"ns1"}, filterManager := { retry := 3 } }

theorem idle_includingModule : includingModule.Idle where
  working := ⟨FilterManager.mirrors_init 3,by decide⟩
  dirty := rfl
  requests ip := FilterCache.not_holds_reset {} ip metricModuleReq

def sampleIP : NetIP := .v4 10 0 0 1

theorem plainPod_samplePod (ns : String) (h : ns ≠ apiServerEndpointName) :
    PlainPod (samplePod ns sampleIP) sampleIP where
  ips := rfl
  v4 := rfl
  notAPIServer hapi := h hapi.2

def reordered : List TrackerOp := [.update (samplePod "ns1" sampleIP),.delete "ns1/pod",.handle 1,.handle 0]

def takenOver : List TrackerOp := [.update (samplePod "ns1" sampleIP),.handle 0,.update (samplePod "ns2" sampleIP),
  .handle 0,.handle 0]

def inOrder : List TrackerOp := [.update (samplePod "ns1" sampleIP),.handle 0,.delete "ns1/pod",.handle 0]

def sampleEntry : DirtyCachePod := ⟨sampleIP,false,true⟩

theorem held_after_markToAdd {m : Module} (hm : m.Orderly) :
    (Module.applyDirtyPods { m with dirtyPods := m.dirtyPods.markToAdd sampleIP sampleEntry } sampleEnv).Held
      sampleIP := by
  have hmarked : Module.Orderly { m with dirtyPods := m.dirtyPods.markToAdd sampleIP sampleEntry } :=
    hm.markToAdd rfl rfl (.inr rfl)
  rw [(Module.applyDirtyPods_spec hmarked accepts_sampleEnv).2.2, Module.willHold_markToAdd]
  exact .inl rfl

end Sample

/-- The address is held although the cache has no pod there, or a pod of no interest. -/
theorem stale_addition_held :
    (Execution.run Tracker.step { m := includingModule } reordered).c.published = [] ∧
    ((Execution.run Tracker.step { m := includingModule } reordered).m.applyDirtyPods sampleEnv).Held sampleIP ∧
    (Execution.run Tracker.step { m := includingModule } reordered).c.getPodByIP sampleIP = none ∧
    (Execution.run Tracker.step { m := includingModule } takenOver).c.published = [] ∧
    ((Execution.run Tracker.step { m := includingModule } takenOver).m.applyDirtyPods sampleEnv).Held sampleIP ∧
    (Execution.run Tracker.step { m := includingModule } takenOver).c.getPodByIP sampleIP =
      some (samplePod "ns2" sampleIP) ∧
    includingModule.ofInterest (samplePod "ns2" sampleIP) = false := by
  have hidle := idle_includingModule.orderly
  refine ⟨by decide,?_,by decide,by decide,?_,by decide,by decide⟩
  · have hm : (Execution.run Tracker.step { m := includingModule } reordered).m = { includingModule with
        dirtyPods := (DirtyCache.markToDelete {} sampleIP sampleEntry).markToAdd sampleIP sampleEntry } := rfl
    rw [hm]
    exact held_after_markToAdd (m := { includingModule with
      dirtyPods := DirtyCache.markToDelete {} sampleIP sampleEntry }) (hidle.markToDelete rfl)
  · exact held_after_markToAdd hidle

theorem tracking_converges_in_order :
    ¬((Execution.run Tracker.step { m := includingModule } inOrder).m.applyDirtyPods sampleEnv).Held sampleIP := by
  have hplain := plainPod_samplePod "ns1" (by decide)
  rw [tracking_converges includingModule idle_includingModule inOrder ?_ (by decide) sampleEnv accepts_sampleEnv]
  · rintro ⟨ep,hget,-⟩
    have hnone : (Execution.run Tracker.step { m := includingModule } inOrder).c.getPodByIP sampleIP = none := by decide
    rw [hnone] at hget
    cases hget
  · refine ⟨⟨⟨sampleIP,hplain⟩,?_⟩,?_,trivial,?_,trivial⟩
    · intro old hold
      cases hold
    · intro ep ip hpub hep
      have hfirst : some ⟨.podAdded,.endpoint (samplePod "ns1" sampleIP)⟩ =
        some (⟨.podAdded,.endpoint ep⟩ : CacheEvent) := hpub
      cases hfirst
      cases hep.unique hplain
      exact .inl ⟨⟨samplePod "ns1" sampleIP,by decide,rfl⟩,.inl (by decide)⟩
    · intro ep ip hpub hep
      have hfirst : some ⟨.podDeleted,.endpoint (samplePod "ns1" sampleIP)⟩ =
        some (⟨.podAdded,.endpoint ep⟩ : CacheEvent) := hpub
      cases hfirst

end Retina.Metrics
