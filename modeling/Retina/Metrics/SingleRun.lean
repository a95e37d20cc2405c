import Retina.Metrics.Restart

/-! # One run at a time

When a restart of the metrics module leaves a single loop and a single subscription. The caller decides whether to wait
for the run before, and from then on until both goroutines are started no other one may be subscribed; this is what a
call that comes too early breaks.
-/
namespace Retina.Metrics
variable {Spec : Type*}

namespace CallerPhase

def committed : CallerPhase Spec → Bool
  | idle | cancelling _ | waiting _ => false
  | _ => true

def ctx? : CallerPhase Spec → Option ℕ
  | starting ctx | subscribed ctx _ | spawning ctx | halfway ctx => some ctx
  | _ => none

/-- The subscriptions, and what `pubsubPodSub` says of them, while a run is started. -/
def Pending (subscriptions : Finset ℕ) (pubsubPodSub : Option ℕ) : CallerPhase Spec → Prop
  | idle | cancelling _ | waiting _ => True
  | locking _ | locked _ | starting _ => subscriptions = ∅
  | subscribed _ sub => subscriptions = {sub}
  | spawning _ | halfway _ => ∃ sub, subscriptions = {sub} ∧ pubsubPodSub = some sub

end CallerPhase

namespace Lifecycle

/-- At most one goroutine is subscribed, and it has the only subscription and the only loop. None is while a run is
started. -/
structure Single (s : Lifecycle Spec) : Prop where
  young : ∀ ctx, s.contexts ≤ ctx → s.ticker ctx = .unborn
  bounded : ∀ ctx, s.caller.ctx? = some ctx → ctx < s.contexts
  one : ∀ ctx ctx', (s.ticker ctx).subscribed = true → (s.ticker ctx').subscribed = true → ctx = ctx'
  registered : ∀ ctx, (s.ticker ctx).subscribed = true → ∃ sub, s.subscriptions = {sub} ∧ s.pubsubPodSub = some sub ∧
    ∀ sub', s.ticker ctx = .leaving sub' → sub' = some sub
  leaving : ∀ ctx sub, s.ticker ctx = .leaving sub → s.done ctx = true
  empty : s.caller.committed = false → (∀ ctx, (s.ticker ctx).subscribed = false) → s.subscriptions = ∅
  quiet : s.caller.committed = true → ∀ ctx, (s.ticker ctx).subscribed = false
  pending : s.caller.Pending s.subscriptions s.pubsubPodSub
  fresh : ∀ sub ∈ s.subscriptions, sub < s.nextSub
  active : ∀ ctx, s.Active ctx → (s.ticker ctx).subscribed = true ∨ s.caller = .halfway ctx

variable {s : Lifecycle Spec}

theorem single_start : ({} : Lifecycle Spec).Single where
  young _ _ := rfl
  bounded _ h := by cases h
  one _ _ h := by cases h
  registered _ h := by cases h
  leaving _ _ h := by cases h
  empty _ _ := rfl
  quiet h := by cases h
  pending := trivial
  fresh _ h := by cases h
  active _ h := by rcases h.1 with h | h <;> cases h

theorem card_le_one_of_pending {phase : CallerPhase Spec} {subscriptions : Finset ℕ} {pubsubPodSub : Option ℕ}
    (hphase : phase.committed = true) (h : phase.Pending subscriptions pubsubPodSub) : subscriptions.card ≤ 1 := by
  cases phase with
  | idle => cases hphase
  | cancelling => cases hphase
  | waiting => cases hphase
  | locking => simp [show subscriptions = ∅ from h]
  | locked => simp [show subscriptions = ∅ from h]
  | starting => simp [show subscriptions = ∅ from h]
  | subscribed ctx sub => simp [show subscriptions = {sub} from h]
  | spawning =>
    obtain ⟨sub,rfl,-⟩ := h
    exact (Finset.card_singleton sub).le
  | halfway =>
    obtain ⟨sub,rfl,-⟩ := h
    exact (Finset.card_singleton sub).le

theorem Single.atMostOne (h : s.Single) : s.AtMostOne where
  loops ctx ctx' hctx hctx' := by
    have hquiet : ∀ c d, (s.ticker c).subscribed = true → s.caller ≠ .halfway d := by
      rintro c d hsubscribed hhalfway
      have hnot := h.quiet (by rw [hhalfway]; rfl) c
      rw [hsubscribed] at hnot
      cases hnot
    rcases h.active ctx hctx with hticker | hcaller
    · rcases h.active ctx' hctx' with hticker' | hcaller'
      · exact h.one ctx ctx' hticker hticker'
      · exact absurd hcaller' (hquiet ctx ctx' hticker)
    · rcases h.active ctx' hctx' with hticker' | hcaller'
      · exact absurd hcaller (hquiet ctx' ctx hticker')
      · cases hcaller.symm.trans hcaller'
        rfl
  subscriptions := by
    cases hcommitted : s.caller.committed with
    | true => exact card_le_one_of_pending hcommitted h.pending
    | false =>
      by_cases hsubscribed : ∃ ctx, (s.ticker ctx).subscribed = true
      · obtain ⟨ctx,hctx⟩ := hsubscribed
        obtain ⟨sub,hsub,-⟩ := h.registered ctx hctx
        rw [hsub, Finset.card_singleton]
      · simp only [not_exists, Bool.not_eq_true] at hsubscribed
        rw [h.empty hcommitted hsubscribed, Finset.card_empty]
        exact Nat.zero_le 1

/-! ## Steps -/

theorem Single.lt_contexts (h : s.Single) {ctx : ℕ} (hborn : s.ticker ctx ≠ .unborn) : ctx < s.contexts := by
  by_contra hle
  exact hborn (h.young ctx (Nat.le_of_not_lt hle))

theorem Single.young_update (h : s.Single) {ctx : ℕ} (hctx : ctx < s.contexts) (phase : TickerPhase) :
    ∀ c, s.contexts ≤ c → Function.update s.ticker ctx phase c = .unborn := by
  intro c hc
  rw [Function.update_of_ne (Nat.ne_of_gt (Nat.lt_of_lt_of_le hctx hc))]
  exact h.young c hc

/-- What is known while a run is started. -/
theorem Single.of_committed (h : s.Single) {phase : CallerPhase Spec} (hcaller : s.caller = phase)
    (hphase : phase.committed = true) :
    (∀ ctx, (s.ticker ctx).subscribed = false) ∧ phase.Pending s.subscriptions s.pubsubPodSub := by
  subst hcaller
  exact ⟨h.quiet hphase,h.pending⟩

/-- An active loop has a goroutine that is subscribed, unless the caller is about to start it. -/
theorem Single.subscribed_of_active (h : s.Single) {ctx : ℕ} (hactive : s.Active ctx) {phase : CallerPhase Spec}
    (hcaller : s.caller = phase) (hphase : phase ≠ .halfway ctx) : (s.ticker ctx).subscribed = true :=
  (h.active ctx hactive).resolve_right fun hhalfway => hphase (hcaller.symm.trans hhalfway)

/-- More contexts are cancelled. -/
theorem Single.with_done (h : s.Single) {cancelled : Finset ℕ} {moduleCancelled : Bool}
    (hdone : ∀ ctx, s.done ctx = true →
      ({ s with cancelled := cancelled, moduleCancelled := moduleCancelled } : Lifecycle Spec).done ctx = true) :
    { s with cancelled := cancelled, moduleCancelled := moduleCancelled }.Single where
  young := h.young
  bounded := h.bounded
  one := h.one
  registered := h.registered
  leaving ctx sub hctx := hdone ctx (h.leaving ctx sub hctx)
  empty := h.empty
  quiet := h.quiet
  pending := h.pending
  fresh := h.fresh
  active ctx hactive := by
    refine h.active ctx ⟨hactive.1,?_⟩
    by_contra hnot
    exact absurd (hdone ctx (Bool.eq_true_of_not_eq_false hnot)) (by simp [hactive.2])

/-- A reader goes on, without starting a loop. -/
theorem Single.with_reader (h : s.Single) {ctx : ℕ} {phase : ReaderPhase} (isRunning : Bool)
    (hphase : phase = .started ∨ phase = .reading → s.reader ctx = .started ∨ s.reader ctx = .reading) :
    { s with isRunning := isRunning, reader := Function.update s.reader ctx phase }.Single where
  young := h.young
  bounded := h.bounded
  one := h.one
  registered := h.registered
  leaving := h.leaving
  empty := h.empty
  quiet := h.quiet
  pending := h.pending
  fresh := h.fresh
  active ctx' hactive := by
    obtain ⟨hreader,hdone⟩ := hactive
    dsimp only at hreader
    by_cases hctx : ctx' = ctx
    · subst hctx
      rw [Function.update_self] at hreader
      exact h.active ctx' ⟨hphase hreader,hdone⟩
    · rw [Function.update_of_ne hctx] at hreader
      exact h.active ctx' ⟨hreader,hdone⟩

theorem Single.moveReader (h : s.Single) (ctx : ℕ) : (s.moveReader ctx).Single := by
  unfold Lifecycle.moveReader
  cases hphase : s.reader ctx with
  | unborn => exact h
  | started =>
    dsimp only
    split
    · exact h
    · exact h.with_reader true fun _ => .inl hphase
  | reading =>
    dsimp only
    split
    · exact h.with_reader s.isRunning nofun
    · exact h
  | closed =>
    dsimp only
    split
    · exact h
    · exact h.with_reader false nofun
  | stopped => exact h.with_reader s.isRunning nofun
  | ended => exact h

/-- A goroutine with a ticker goes on, subscribed as before. -/
theorem Single.with_ticker (h : s.Single) {ctx : ℕ} {phase : TickerPhase} (hborn : s.ticker ctx ≠ .unborn)
    (hphase : phase.subscribed = (s.ticker ctx).subscribed)
    (hleaving : ∀ sub, phase = .leaving sub → sub = s.pubsubPodSub ∧ s.done ctx = true) :
    { s with ticker := Function.update s.ticker ctx phase }.Single := by
  have hsubscribed : ∀ c, (Function.update s.ticker ctx phase c).subscribed = (s.ticker c).subscribed := by
    intro c
    by_cases hc : c = ctx
    · subst hc
      rw [Function.update_self, hphase]
    · rw [Function.update_of_ne hc]
  have hold : ∀ c sub, Function.update s.ticker ctx phase c = .leaving sub →
      sub = s.pubsubPodSub ∧ s.done c = true ∨ s.ticker c = .leaving sub := by
    intro c sub hc
    by_cases hne : c = ctx
    · subst hne
      rw [Function.update_self] at hc
      exact .inl (hleaving sub hc)
    · rw [Function.update_of_ne hne] at hc
      exact .inr hc
  refine ⟨h.young_update (h.lt_contexts hborn) phase,h.bounded,?_,?_,?_,?_,?_,h.pending,h.fresh,?_⟩
  · simpa only [hsubscribed] using h.one
  · intro c hc
    obtain ⟨sub,hsub,hpub,hleaving⟩ := h.registered c (by rwa [← hsubscribed c])
    refine ⟨sub,hsub,hpub,?_⟩
    intro sub' hsub'
    rcases hold c sub' hsub' with ⟨rfl,-⟩ | hc'
    · exact hpub
    · exact hleaving sub' hc'
  · intro c sub hc
    rcases hold c sub hc with ⟨-,hdone⟩ | hc'
    · exact hdone
    · exact h.leaving c sub hc'
  · simpa only [hsubscribed] using h.empty
  · simpa only [hsubscribed] using h.quiet
  · intro c hactive
    simpa only [hsubscribed] using h.active c hactive

/-- The goroutine that is subscribed removes the only subscription. -/
theorem Single.unsubscribe (h : s.Single) {ctx : ℕ} {sub : Option ℕ} (hctx : s.ticker ctx = .leaving sub) :
    { s with
      subscriptions := s.subscriptions \ sub.toFinset
      ticker := Function.update s.ticker ctx .left }.Single := by
  have hsubscribed : (s.ticker ctx).subscribed = true := by rw [hctx]; rfl
  have hempty : s.subscriptions \ sub.toFinset = ∅ := by
    obtain ⟨sub₀,hsubs,-,hsub⟩ := h.registered ctx hsubscribed
    rw [hsub sub hctx, hsubs, Option.toFinset_some, sdiff_self, Finset.bot_eq_empty]
  have hcommitted : s.caller.committed = false := by
    by_contra hnot
    rw [h.quiet (Bool.eq_true_of_not_eq_false hnot) ctx] at hsubscribed
    cases hsubscribed
  have hnone : ∀ c, (Function.update s.ticker ctx .left c).subscribed = false := by
    intro c
    by_cases hc : c = ctx
    · subst hc
      rw [Function.update_self]
      rfl
    · rw [Function.update_of_ne hc]
      by_contra hnot
      exact hc (h.one c ctx (Bool.eq_true_of_not_eq_false hnot) hsubscribed)
  refine ⟨h.young_update (h.lt_contexts (by simp [hctx])) .left,h.bounded,?_,?_,?_,?_,?_,?_,?_,?_⟩
  · intro c c' hc
    cases (hnone c).symm.trans hc
  · intro c hc
    cases (hnone c).symm.trans hc
  · intro c sub' hc
    have hc' := hnone c
    rw [show Function.update s.ticker ctx .left c = _ from hc] at hc'
    cases hc'
  · exact fun _ _ => hempty
  · exact fun _ => hnone
  · change s.caller.Pending (s.subscriptions \ sub.toFinset) s.pubsubPodSub
    cases hcaller : s.caller <;> first | trivial | (rw [hcaller] at hcommitted; cases hcommitted)
  · intro sub' hsub'
    exact h.fresh sub' (Finset.sdiff_subset hsub')
  · intro c hactive
    rcases h.active c hactive with hc | hc
    · cases h.one c ctx hc hsubscribed
      cases (h.leaving ctx sub hctx).symm.trans hactive.2
    · rw [hc] at hcommitted
      cases hcommitted

theorem Single.moveTicker (h : s.Single) (ctx : ℕ) : (s.moveTicker ctx).Single := by
  unfold Lifecycle.moveTicker
  cases hphase : s.ticker ctx with
  | unborn => exact h
  | ticking =>
    dsimp only
    split
    next hdone =>
      refine h.with_ticker (by simp [hphase]) (by rw [hphase]; rfl) ?_
      rintro sub ⟨⟩
      exact ⟨rfl,hdone⟩
    next => exact h
  | leaving sub => exact h.unsubscribe hphase
  | left => exact h.with_ticker (by simp [hphase]) (by rw [hphase]; rfl) nofun
  | ended => exact h

/-- The caller goes on, with nothing else changed. -/
theorem Single.with_caller (h : s.Single) {phase : CallerPhase Spec}
    (hbounded : ∀ ctx, phase.ctx? = some ctx → ctx < s.contexts)
    (hempty : phase.committed = false → (∀ ctx, (s.ticker ctx).subscribed = false) → s.subscriptions = ∅)
    (hquiet : phase.committed = true → ∀ ctx, (s.ticker ctx).subscribed = false)
    (hpending : phase.Pending s.subscriptions s.pubsubPodSub) (hhalfway : ∀ ctx, s.caller ≠ .halfway ctx) :
    { s with caller := phase }.Single where
  young := h.young
  bounded := hbounded
  one := h.one
  registered := h.registered
  leaving := h.leaving
  empty := hempty
  quiet := hquiet
  pending := hpending
  fresh := h.fresh
  active ctx hactive := .inl ((h.active ctx hactive).resolve_right (hhalfway ctx))

/-- The caller decides to start a run when no goroutine is subscribed. -/
theorem Single.commit (h : s.Single) (spec : Spec) (hcaller : s.caller.committed = false)
    (hnone : ∀ ctx, (s.ticker ctx).subscribed = false) : { s with caller := .locking spec }.Single := by
  refine h.with_caller nofun nofun (fun _ => hnone) (h.empty hcaller hnone) ?_
  intro ctx hctx
  rw [hctx] at hcaller
  cases hcaller

theorem subscribed_eq_false_of_wgIsZero (h : s.Single) (hzero : s.wgIsZero = true) (ctx : ℕ) :
    (s.ticker ctx).subscribed = false := by
  by_cases hctx : ctx < s.contexts
  · rcases (of_decide_eq_true hzero ctx hctx).2 with hticker | hticker <;> rw [hticker] <;> rfl
  · rw [h.young ctx (Nat.le_of_not_lt hctx)]
    rfl

theorem Single.moveCaller_locked (h : s.Single) {spec : Spec} (hcaller : s.caller = .locked spec) :
    { s with
      currentSpec := some spec
      ctxCancel := some s.contexts
      contexts := s.contexts + 1
      caller := .starting s.contexts }.Single where
  young ctx hctx := h.young ctx (Nat.le_of_succ_le hctx)
  bounded ctx hctx := by
    cases hctx
    exact Nat.lt_succ_self s.contexts
  one := h.one
  registered := h.registered
  leaving := h.leaving
  empty := nofun
  quiet _ := (h.of_committed hcaller rfl).1
  pending := (h.of_committed hcaller rfl).2
  fresh := h.fresh
  active ctx hactive := .inl (h.subscribed_of_active hactive hcaller nofun)

theorem Single.moveCaller_starting (h : s.Single) {ctx : ℕ} (hcaller : s.caller = .starting ctx) :
    { s with
      subscriptions := insert s.nextSub s.subscriptions
      nextSub := s.nextSub + 1
      caller := .subscribed ctx s.nextSub }.Single := by
  obtain ⟨hnone,hpending⟩ := h.of_committed hcaller rfl
  refine ⟨h.young,?_,h.one,?_,h.leaving,nofun,fun _ => hnone,?_,?_,?_⟩
  · intro ctx' hctx'
    exact h.bounded ctx' (by rw [hcaller]; exact hctx')
  · intro ctx' hctx'
    cases (hnone ctx').symm.trans hctx'
  · change insert s.nextSub s.subscriptions = {s.nextSub}
    rw [show s.subscriptions = ∅ from hpending]
    rfl
  · intro sub hsub
    rcases Finset.mem_insert.1 hsub with rfl | hsub
    · exact Nat.lt_succ_self s.nextSub
    · exact Nat.lt_succ_of_lt (h.fresh sub hsub)
  · intro ctx' hactive
    exact .inl (h.subscribed_of_active hactive hcaller nofun)

theorem Single.moveCaller_subscribed (h : s.Single) {ctx sub : ℕ} (hcaller : s.caller = .subscribed ctx sub) :
    { s with pubsubPodSub := some sub, caller := .spawning ctx }.Single := by
  obtain ⟨hnone,hpending⟩ := h.of_committed hcaller rfl
  refine ⟨h.young,?_,h.one,?_,h.leaving,nofun,fun _ => hnone,⟨sub,hpending,rfl⟩,h.fresh,?_⟩
  · intro ctx' hctx'
    exact h.bounded ctx' (by rw [hcaller]; exact hctx')
  · intro ctx' hctx'
    cases (hnone ctx').symm.trans hctx'
  · intro ctx' hactive
    exact .inl (h.subscribed_of_active hactive hcaller nofun)

theorem Single.moveCaller_spawning (h : s.Single) {ctx : ℕ} (hcaller : s.caller = .spawning ctx) :
    { s with reader := Function.update s.reader ctx .started, caller := .halfway ctx }.Single := by
  obtain ⟨hnone,hpending⟩ := h.of_committed hcaller rfl
  refine ⟨h.young,?_,h.one,h.registered,h.leaving,nofun,fun _ => hnone,hpending,h.fresh,?_⟩
  · intro ctx' hctx'
    exact h.bounded ctx' (by rw [hcaller]; exact hctx')
  · rintro ctx' ⟨hreader,hdone⟩
    dsimp only at hreader
    by_cases hctx' : ctx' = ctx
    · exact .inr (by rw [hctx'])
    · rw [Function.update_of_ne hctx'] at hreader
      exact .inl (h.subscribed_of_active ⟨hreader,hdone⟩ hcaller nofun)

theorem Single.moveCaller_halfway (h : s.Single) {ctx : ℕ} (hcaller : s.caller = .halfway ctx) :
    { s with ticker := Function.update s.ticker ctx .ticking, caller := .idle }.Single := by
  obtain ⟨hnone,hpending⟩ := h.of_committed hcaller rfl
  have honly : ∀ c, (Function.update s.ticker ctx .ticking c).subscribed = true → c = ctx := by
    intro c hc
    by_contra hne
    rw [Function.update_of_ne hne, hnone c] at hc
    cases hc
  have hself : (Function.update s.ticker ctx .ticking ctx).subscribed = true := by
    rw [Function.update_self]
    rfl
  have hnot : ∀ c sub, Function.update s.ticker ctx .ticking c ≠ .leaving sub := by
    intro c sub hc
    have hctx : c = ctx := honly c (by rw [hc]; rfl)
    rw [hctx, Function.update_self] at hc
    cases hc
  refine ⟨h.young_update (h.bounded ctx (by rw [hcaller]; rfl)) .ticking,nofun,?_,?_,?_,?_,nofun,trivial,h.fresh,?_⟩
  · intro c c' hc hc'
    rw [honly c hc, honly c' hc']
  · intro c hc
    obtain ⟨sub,hsub,hpub⟩ := hpending
    exact ⟨sub,hsub,hpub,fun sub' hsub' => absurd hsub' (hnot c sub')⟩
  · intro c sub hc
    exact absurd hc (hnot c sub)
  · intro _ hall
    cases hself.symm.trans (hall ctx)
  · intro c hactive
    rcases h.active c hactive with hc | hc
    · cases (hnone c).symm.trans hc
    · cases hcaller.symm.trans hc
      exact .inl hself

theorem Single.moveCaller (h : s.Single) : s.moveCaller.Single := by
  unfold Lifecycle.moveCaller
  cases hcaller : s.caller with
  | idle => exact h
  | cancelling spec =>
    have hcancelled : { s with cancelled := s.cancelled ∪ s.ctxCancel.toFinset }.Single := by
      refine h.with_done fun ctx hdone => ?_
      simp only [done, Bool.or_eq_true, decide_eq_true_eq, Finset.mem_union] at hdone ⊢
      exact hdone.imp_right .inl
    refine hcancelled.with_caller nofun ?_ nofun trivial (by simp [hcaller])
    intro _ hnone
    exact h.empty (by rw [hcaller]; rfl) hnone
  | waiting spec =>
    dsimp only
    split
    next hzero => exact h.commit spec (by rw [hcaller]; rfl) (subscribed_eq_false_of_wgIsZero h hzero)
    next => exact h
  | locking spec =>
    obtain ⟨hnone,hpending⟩ := h.of_committed hcaller rfl
    exact h.with_caller nofun nofun (fun _ => hnone) hpending (by simp [hcaller])
  | locked spec => exact h.moveCaller_locked hcaller
  | starting ctx =>
    have hpending := (h.of_committed hcaller rfl).2
    dsimp only
    split
    · exact h.with_caller nofun (fun _ _ => hpending) nofun trivial (by simp [hcaller])
    · exact h.moveCaller_starting hcaller
  | subscribed ctx sub => exact h.moveCaller_subscribed hcaller
  | spawning ctx => exact h.moveCaller_spawning hcaller
  | halfway ctx => exact h.moveCaller_halfway hcaller

variable [DecidableEq Spec]

theorem Single.reconcile (h : s.Single) {spec : Spec} (hcalled : s.CalledInTime (.reconcile spec)) :
    (s.reconcile spec).Single := by
  unfold Lifecycle.reconcile
  split
  next hcaller =>
    split
    next => exact h
    next hspec =>
      split
      next =>
        refine h.with_caller nofun ?_ nofun trivial (by simp [hcaller])
        intro _ hnone
        exact h.empty (by rw [hcaller]; rfl) hnone
      next hrunning =>
        exact h.commit spec (by rw [hcaller]; rfl) (hcalled hcaller hspec (Bool.eq_false_of_not_eq_true hrunning))
  next => exact h

theorem Single.step {e : LifecycleEvent Spec} (h : s.Single) (hcalled : s.CalledInTime e) : (s.step e).Single := by
  cases e with
  | reconcile spec => exact h.reconcile hcalled
  | move thread =>
    cases thread with
    | caller => exact h.moveCaller
    | reader ctx => exact h.moveReader ctx
    | ticker ctx => exact h.moveTicker ctx
  | cancelModule =>
    refine h.with_done fun ctx hdone => ?_
    simp only [done, Bool.true_or]

/-- After a call that comes too early the caller subscribes although a goroutine is still subscribed. -/
theorem Single.subscribes_twice {spec : Spec} (h : s.Single) (hcalled : ¬s.CalledInTime (.reconcile spec)) :
    2 ≤ (Execution.run Lifecycle.step (s.step (.reconcile spec))
      (List.replicate 3 (.move .caller))).subscriptions.card := by
  simp only [CalledInTime, not_forall] at hcalled
  obtain ⟨hcaller,hspec,hrunning,ctx,hctx⟩ := hcalled
  obtain ⟨sub,hsub,-⟩ := h.registered ctx (Bool.eq_true_of_not_eq_false hctx)
  have hlocking : s.step (.reconcile spec) = { s with caller := .locking spec } := by
    simp [Lifecycle.step, Lifecycle.reconcile, hcaller, hspec, hrunning]
  have hfresh : s.nextSub ∉ s.subscriptions := fun hmem => absurd (h.fresh _ hmem) (Nat.lt_irrefl _)
  have hsubscriptions : (Execution.run Lifecycle.step (s.step (.reconcile spec))
      (List.replicate 3 (.move .caller))).subscriptions = insert s.nextSub s.subscriptions := by
    rw [hlocking]
    simp [Execution.run, List.replicate, Lifecycle.step, Lifecycle.moveCaller, hrunning]
  rw [hsubscriptions, Finset.card_insert_of_notMem hfresh, hsub, Finset.card_singleton]

/-- A run keeps to one loop and one subscription, however the threads are scheduled from any of its states on, exactly
if no call of `Reconcile` comes while an earlier run is not yet marked as running or not yet unsubscribed. -/
theorem one_loop_iff (events : List (LifecycleEvent Spec)) :
    (∀ earlier, earlier <+: events → ∀ later : List (LifecycleEvent Spec), (∀ e ∈ later, e.isMove = true) →
      (Execution.run step {} (earlier ++ later)).AtMostOne) ↔ Execution.Along step CalledInTime {} events := by
  refine Execution.forall_continuation_iff_along (I := Single) (fun _ _ => Single.step) ?_ (fun _ => Single.atMostOne) ?_
    single_start events
  · intro s e he
    cases e with
    | move thread => trivial
    | reconcile spec => cases he
    | cancelModule => cases he
  · intro s e h hcalled
    cases e with
    | move thread => exact absurd trivial hcalled
    | cancelModule => exact absurd trivial hcalled
    | reconcile spec =>
      refine ⟨List.replicate 3 (.move .caller),?_,?_⟩
      · intro e he
        rw [List.eq_of_mem_replicate he]
        rfl
      · intro hone
        exact absurd hone.subscriptions (Nat.not_le_of_lt (h.subscribes_twice hcalled))

/-- The second call comes before the goroutines of the first one have done anything. -/
theorem second_run_unnoticed :
    let s := Execution.run step ({} : Lifecycle String)
      (.reconcile "a" :: List.replicate 6 (.move .caller) ++ .reconcile "b" :: List.replicate 6 (.move .caller))
    s.caller = .idle ∧ s.subscriptions = {0,1} ∧ s.Active 0 ∧ s.Active 1 ∧ ¬s.AtMostOne := by
  refine ⟨rfl,by decide,by decide,by decide,?_⟩
  intro hone
  exact absurd (hone.loops 0 1 (by decide) (by decide)) (by decide)

end Lifecycle
end Retina.Metrics
