import Retina.Cli.Create

/-! # The credentials of a command that fails

A `Secret` that the command has created and that no job owns is not collected when the jobs are removed. The results
say which answers of the server leave such a `Secret` behind an error.
-/
namespace Retina.Cli
open Retina.Capture

def Secret.OwnedBy (jobs : List Job) (secret : Secret) : Prop :=
  ∃ ref ∈ secret.ownerReferences, ∃ job ∈ jobs, ref.uid = job.uid

theorem not_ownedBy {jobs : List Job} {secret : Secret} (h : secret.ownerReferences = []) : ¬secret.OwnedBy jobs := by
  rintro ⟨ref,href,-⟩
  rw [h] at href
  cases href

namespace Cluster

def NoOrphans (c : Cluster) : Prop :=
  ∀ name ∈ c.createdSecrets, ∀ secret ∈ c.secrets.lookup name, secret.OwnedBy c.createdJobs

structure Bare (c : Cluster) (names : List String) : Prop where
  created : c.createdSecrets = names
  nodup : names.Nodup
  unowned : ∀ name ∈ names, ∃ secret, c.secrets.lookup name = some secret ∧ secret.ownerReferences = []

theorem Bare.noOrphans_iff {c : Cluster} {names : List String} (h : c.Bare names) : c.NoOrphans ↔ names = [] := by
  constructor
  · intro hno
    refine List.eq_nil_iff_forall_not_mem.mpr fun name hname => ?_
    obtain ⟨secret,hsecret,hnone⟩ := h.unowned name hname
    exact not_ownedBy hnone (hno name (h.created.symm ▸ hname) secret hsecret)
  · rintro rfl name hname
    rw [h.created] at hname
    cases hname

theorem Bare.frame {c c' : Cluster} {names : List String} (h : c.Bare names) (hsecrets : c'.secrets = c.secrets)
    (hcreated : c'.createdSecrets = c.createdSecrets) : c'.Bare names where
  created := hcreated.trans h.created
  nodup := h.nodup
  unowned := hsecrets ▸ h.unowned

end Cluster

/-! ## Secrets -/

/-- The `Secret` is created. The answer may still be an error. -/
def SecretRequest.Happens (secrets : Finmap fun _ : String => Secret) (r : SecretRequest) : Prop :=
  ∃ completion, (r.answer = .done completion ∨ ∃ err, r.answer = .lost completion err) ∧
    r.generateName ++ completion ∉ secrets

def SecretRequest.Succeeds (secrets : Finmap fun _ : String => Secret) (r : SecretRequest) : Prop :=
  ∃ completion, r.answer = .done completion ∧ r.generateName ++ completion ∉ secrets

theorem SecretRequest.Succeeds.happens {secrets : Finmap fun _ : String => Secret} {r : SecretRequest}
    (h : r.Succeeds secrets) : r.Happens secrets := by
  obtain ⟨completion,ha,hfree⟩ := h
  exact ⟨completion,.inl ha,hfree⟩

def SecretRequest.answeredName (r : SecretRequest) : Option String :=
  match r.answer with
  | .done completion => some (r.generateName ++ completion)
  | _ => none

theorem Cluster.Bare.addSecret {c : Cluster} {names : List String} (hc : c.Bare names) (captureName : String)
    (r : SecretRequest) {name : String} (hfree : name ∉ c.secrets) :
    (c.addSecret captureName r name).Bare (names ++ [name]) where
  created := congrArg (· ++ [name]) hc.created
  nodup := by
    refine List.nodup_append.mpr ⟨hc.nodup,List.nodup_singleton _,fun x hx y hy => ?_⟩
    rw [List.mem_singleton.mp hy]
    rintro rfl
    obtain ⟨secret,hsecret,-⟩ := hc.unowned x hx
    exact hfree (Finmap.mem_of_lookup_eq_some hsecret)
  unowned := by
    intro other hother
    rw [Cluster.addSecret, FiniteMap.lookup_insert_eq_ite]
    by_cases hn : other = name
    · exact ⟨_,if_pos hn,rfl⟩
    · rw [if_neg hn]
      exact hc.unowned other ((List.mem_append.mp hother).resolve_right fun hlast => hn (List.mem_singleton.mp hlast))

/-- An error leaves the `Secret` of the request behind if the request was carried out. -/
theorem createSecret_of_fails (captureName : String) {r : SecretRequest} {c : Cluster} {names : List String}
    (hc : c.Bare names) (h : ¬r.Succeeds c.secrets) :
    ∃ c' err left, createSecret captureName r c = (c',.error err) ∧ c'.Bare (names ++ left) ∧
      (left = [] ↔ ¬r.Happens c.secrets) := by
  have hbare : c.Bare (names ++ []) := (List.append_nil names).symm ▸ hc
  unfold createSecret
  cases ha : r.answer with
  | refused err => exact ⟨c,err,[],rfl,hbare,by simp [SecretRequest.Happens, ha]⟩
  | done completion =>
    have htaken : r.generateName ++ completion ∈ c.secrets := by
      by_contra hfree
      exact h ⟨completion,ha,hfree⟩
    exact ⟨c,_,[],if_pos htaken,hbare,by simp [SecretRequest.Happens, ha, htaken]⟩
  | lost completion err =>
    by_cases htaken : r.generateName ++ completion ∈ c.secrets
    · exact ⟨c,err,[],if_pos htaken,hbare,by simp [SecretRequest.Happens, ha, htaken]⟩
    · exact ⟨_,err,_,if_neg htaken,hc.addSecret captureName r htaken,by simp [SecretRequest.Happens, ha, htaken]⟩

theorem createSecret_of_succeeds (captureName : String) {r : SecretRequest} {c : Cluster} {names : List String}
    (hc : c.Bare names) (h : r.Succeeds c.secrets) :
    ∃ completion, r.answeredName = some (r.generateName ++ completion) ∧
      createSecret captureName r c =
        (c.addSecret captureName r (r.generateName ++ completion),.ok (r.generateName ++ completion)) ∧
      (c.addSecret captureName r (r.generateName ++ completion)).Bare (names ++ [r.generateName ++ completion]) := by
  obtain ⟨completion,ha,hfree⟩ := h
  refine ⟨completion,by simp [SecretRequest.answeredName, ha],?_,hc.addSecret captureName r hfree⟩
  simp only [createSecret, ha, if_neg hfree]

section Command
variable (tools : Tools) (o : Opts) (a : Answers)

def requests : List SecretRequest :=
  (if o.blobUpload = "" then [] else [blobRequest o a]) ++ (if o.s3Bucket = "" then [] else [s3Request o a])

theorem forall_mem_requests {P : SecretRequest → Prop} :
    (∀ r ∈ requests o a, P r) ↔
      (o.blobUpload ≠ "" → P (blobRequest o a)) ∧ (o.s3Bucket ≠ "" → P (s3Request o a)) := by
  rw [requests, List.forall_mem_append]
  by_cases hblob : o.blobUpload = "" <;> by_cases hs3 : o.s3Bucket = "" <;> simp [hblob, hs3]

/-- The names of the two secrets differ, whatever the server adds to them. -/
theorem s3Name_ne_blobName (x y : String) :
    (s3Request o a).generateName ++ x ≠ (blobRequest o a).generateName ++ y := by
  intro h
  have hchar := congrArg (fun s : String => s.toList[8]?) h
  simp [s3Request, blobRequest, String.toList_append] at hchar

def blobName : Option String := if o.blobUpload = "" then none else (blobRequest o a).answeredName

def s3Name : Option String := if o.s3Bucket = "" then none else (s3Request o a).answeredName

theorem blobOutput_outcome {c : Cluster} (hc : c.Bare []) :
    (∃ c' err left, o.blobUpload ≠ "" ∧ ¬(blobRequest o a).Succeeds c.secrets ∧ blobOutput o a c = (c',.error err) ∧
      c'.Bare left ∧ (left = [] ↔ ¬(blobRequest o a).Happens c.secrets)) ∨
    (∃ c', blobOutput o a c = (c',.ok (blobName o a)) ∧ c'.Bare (blobName o a).toList ∧ c'.createdJobs = c.createdJobs ∧
      ((blobName o a).isSome ↔ o.blobUpload ≠ "") ∧ (o.blobUpload ≠ "" → (blobRequest o a).Succeeds c.secrets) ∧
      ((s3Request o a).Succeeds c'.secrets ↔ (s3Request o a).Succeeds c.secrets) ∧
      ((s3Request o a).Happens c'.secrets ↔ (s3Request o a).Happens c.secrets)) := by
  by_cases hblob : o.blobUpload = ""
  · have hname : blobName o a = none := if_pos hblob
    exact .inr ⟨c,by simp [blobOutput, hblob, hname],by rwa [hname],rfl,by simp [hname, hblob],
      fun hne => absurd hblob hne,Iff.rfl,Iff.rfl⟩
  by_cases h : (blobRequest o a).Succeeds c.secrets
  · obtain ⟨completion,hanswered,heq,hbare⟩ := createSecret_of_succeeds o.name hc h
    have hname : blobName o a = some ((blobRequest o a).generateName ++ completion) := by
      rw [blobName, if_neg hblob, hanswered]
    refine .inr ⟨c.addSecret o.name (blobRequest o a) ((blobRequest o a).generateName ++ completion),?_,hname ▸ hbare,
      rfl,by simp [hname, hblob],fun _ => h,?_,?_⟩
    · simp [blobOutput, createSecretFromBlobUpload, hblob, heq, hname]
    · simp only [SecretRequest.Succeeds, Cluster.addSecret, Finmap.mem_insert, s3Name_ne_blobName, false_or]
    · simp only [SecretRequest.Happens, Cluster.addSecret, Finmap.mem_insert, s3Name_ne_blobName, false_or]
  · obtain ⟨c',err,left,heq,hbare,hleft⟩ := createSecret_of_fails o.name hc h
    exact .inl ⟨c',.unwrapped err,left,hblob,h,by simp [blobOutput, createSecretFromBlobUpload, hblob, heq],hbare,hleft⟩

theorem s3Output_outcome {c : Cluster} {names : List String} (hc : c.Bare names) :
    (∃ c' err left, o.s3Bucket ≠ "" ∧ ¬(s3Request o a).Succeeds c.secrets ∧ s3Output o a c = (c',.error err) ∧
      c'.Bare (names ++ left) ∧ (left = [] ↔ ¬(s3Request o a).Happens c.secrets)) ∨
    (∃ c', s3Output o a c = (c',.ok ((s3Name o a).map (s3UploadOf o))) ∧ c'.Bare (names ++ (s3Name o a).toList) ∧
      c'.createdJobs = c.createdJobs ∧ (∀ name ∈ s3Name o a, name ≠ "") ∧ ((s3Name o a).isSome ↔ o.s3Bucket ≠ "") ∧
      (o.s3Bucket ≠ "" → (s3Request o a).Succeeds c.secrets)) := by
  by_cases hs3 : o.s3Bucket = ""
  · have hname : s3Name o a = none := if_pos hs3
    refine .inr ⟨c,by simp [s3Output, hs3, hname],?_,rfl,by simp [hname],by simp [hname, hs3],fun hne => absurd hs3 hne⟩
    rwa [hname, Option.toList_none, List.append_nil]
  by_cases h : (s3Request o a).Succeeds c.secrets
  · obtain ⟨completion,hanswered,heq,hbare⟩ := createSecret_of_succeeds o.name hc h
    have hname : s3Name o a = some ((s3Request o a).generateName ++ completion) := by
      rw [s3Name, if_neg hs3, hanswered]
    refine .inr ⟨c.addSecret o.name (s3Request o a) ((s3Request o a).generateName ++ completion),?_,hname ▸ hbare,
      rfl,?_,by simp [hname, hs3],fun _ => h⟩
    · simp [s3Output, createSecretFromS3Upload, hs3, heq, hname]
    · simp [hname, s3Request]
  · obtain ⟨c',err,left,heq,hbare,hleft⟩ := createSecret_of_fails o.name hc h
    exact .inl ⟨c',.s3UploadSecret err,left,hs3,h,by simp [s3Output, createSecretFromS3Upload, hs3, heq],hbare,hleft⟩

def madeCapture (ns : String) (selected : Selected) : CaptureObject :=
  captureOf o a (effectiveNamespace o ns) selected (blobName o a) ((s3Name o a).map (s3UploadOf o))

theorem secretNames_madeCapture (ns : String) (selected : Selected) (h : ∀ name ∈ s3Name o a, name ≠ "") :
    secretNames (madeCapture o a ns selected) = (blobName o a).toList ++ (s3Name o a).toList := by
  have hnames : ((((s3Name o a).map (s3UploadOf o)).toList.map S3Upload.secretName).filter (· ≠ "")) =
      (s3Name o a).toList := by
    cases hname : s3Name o a with
    | none => rfl
    | some name => simp [s3UploadOf, h name hname]
  exact congrArg ((blobName o a).toList ++ ·) hnames

theorem length_requests : (requests o a).length =
    (if o.blobUpload = "" then 0 else 1) + if o.s3Bucket = "" then 0 else 1 := by
  rw [requests, List.length_append]
  split_ifs <;> rfl

theorem length_toList {name : Option String} {text : String} (h : name.isSome ↔ text ≠ "") :
    name.toList.length = if text = "" then 0 else 1 := by
  cases name with
  | none => simp_all
  | some name => simp_all

/-- What `createCaptureF` leaves behind once the options are accepted: an error with the secrets before it, or all the
secrets. -/
theorem createCaptureF_outcome {selected : Selected} (hopts : checkOpts tools o = .ok selected) (ns : String)
    {c : Cluster} (hc : c.Bare []) :
    (∃ c' err names, createCaptureF tools o a (effectiveNamespace o ns) c = (c',.error err) ∧ c'.Bare names ∧
      (∃ r ∈ requests o a, ¬r.Succeeds c.secrets) ∧
      (names = [] ↔ ∀ first ∈ (requests o a).head?, ¬first.Happens c.secrets)) ∨
    (∃ c', createCaptureF tools o a (effectiveNamespace o ns) c = (c',.ok (madeCapture o a ns selected)) ∧
      c'.Bare (secretNames (madeCapture o a ns selected)) ∧ c'.createdJobs = c.createdJobs ∧
      (secretNames (madeCapture o a ns selected)).length = (requests o a).length ∧
      ∀ r ∈ requests o a, r.Succeeds c.secrets) := by
  rcases blobOutput_outcome o a hc with
    ⟨c₁,err,left,hblob,hfails,heq,hbare,hleft⟩ | ⟨c₁,heq,hbare,hjobs,hsome,hsucceeds,hs3same,hs3happens⟩
  · refine .inl ⟨c₁,err,left,by simp [createCaptureF, hopts, heq],hbare,⟨blobRequest o a,?_,hfails⟩,?_⟩
    · simp [requests, hblob]
    · simp [requests, hblob, hleft]
  rcases s3Output_outcome o a hbare with
    ⟨c₂,err,left,hs3,hfails,heq',hbare',hleft⟩ | ⟨c₂,heq',hbare',hjobs',hnonempty,hsome',hs3⟩
  · rw [hs3same] at hfails
    rw [hs3happens] at hleft
    refine .inl ⟨c₂,err,_,by simp [createCaptureF, hopts, heq, heq'],hbare',⟨s3Request o a,?_,hfails⟩,?_⟩
    · simp [requests, hs3]
    · by_cases hblob : o.blobUpload = ""
      · have hnone : blobName o a = none := if_pos hblob
        simp [requests, hblob, hs3, hnone, hleft]
      · obtain ⟨name,hname⟩ := Option.isSome_iff_exists.mp (hsome.mpr hblob)
        simp [requests, hblob, hname, (hsucceeds hblob).happens]
  · refine .inr ⟨c₂,by simp only [createCaptureF, hopts, heq, heq', madeCapture],?_,hjobs'.trans hjobs,?_,?_⟩
    · rwa [secretNames_madeCapture o a ns selected hnonempty]
    · rw [secretNames_madeCapture o a ns selected hnonempty, List.length_append, length_requests, length_toList hsome,
        length_toList hsome']
    · exact (forall_mem_requests o a).mpr ⟨hsucceeds,fun hempty => hs3same.mp (hs3 hempty)⟩

/-! ## Jobs -/

def JobsCreated (count : ℕ) : Prop := ∀ i < count, ∃ job, a.createJob i = .done job

theorem createJobsFrom_frame (i : ℕ) (specs : List JobSpec) (jobsCreated : List Job) (c : Cluster) :
    (createJobsFrom tools o a i specs jobsCreated c).1.secrets = c.secrets ∧
      (createJobsFrom tools o a i specs jobsCreated c).1.createdSecrets = c.createdSecrets := by
  induction specs generalizing i jobsCreated c with
  | nil => exact ⟨rfl,rfl⟩
  | cons spec specs ih =>
    rw [createJobsFrom]
    split
    · exact ⟨rfl,rfl⟩
    · exact ih _ _ _
    · exact ⟨rfl,rfl⟩

theorem createJobsFrom_fails (i : ℕ) (specs : List JobSpec) (jobsCreated : List Job) (c : Cluster)
    (h : ¬∀ k < specs.length, ∃ job, a.createJob (i + k) = .done job) :
    ∃ err, (createJobsFrom tools o a i specs jobsCreated c).2 = .error err := by
  induction specs generalizing i jobsCreated c with
  | nil => exact absurd (fun k hk => absurd hk (Nat.not_lt_zero k)) h
  | cons spec specs ih =>
    rw [createJobsFrom]
    split
    · exact ⟨_,rfl⟩
    · next name uid heq =>
      refine ih _ _ _ fun hrest => h fun k hk => ?_
      cases k with
      | zero => exact ⟨_,heq⟩
      | succ k =>
        have := hrest k (Nat.lt_of_succ_lt_succ hk)
        rwa [Nat.add_right_comm] at this
    · exact ⟨_,rfl⟩

theorem createJobsFrom_succeeds (i : ℕ) (specs : List JobSpec) {jobsCreated : List Job} {c : Cluster}
    (hc : c.createdJobs = jobsCreated) (h : ∀ k < specs.length, ∃ job, a.createJob (i + k) = .done job) :
    ∃ jobs, (createJobsFrom tools o a i specs jobsCreated c).2 = .ok jobs ∧
      (createJobsFrom tools o a i specs jobsCreated c).1.createdJobs = jobs ∧
      jobs.length = jobsCreated.length + specs.length := by
  induction specs generalizing i jobsCreated c with
  | nil => exact ⟨jobsCreated,rfl,hc,rfl⟩
  | cons spec specs ih =>
    obtain ⟨⟨name,uid⟩,hfirst⟩ := h 0 (Nat.zero_lt_succ _)
    simp only [createJobsFrom, Nat.add_zero] at hfirst ⊢
    rw [hfirst]
    obtain ⟨jobs,hok,hcreated,hlen⟩ := @ih (i + 1) (jobsCreated ++ [⟨name,uid,prepareJob tools o spec⟩])
      (c.addJob ⟨name,uid,prepareJob tools o spec⟩) (by rw [Cluster.addJob, hc]) (fun k hk => by
        have := h (k + 1) (Nat.succ_lt_succ hk)
        rwa [Nat.add_right_comm, ← Nat.add_assoc] at *)
    refine ⟨jobs,hok,hcreated,?_⟩
    rw [hlen, List.length_append, List.length_singleton, List.length_cons]
    omega

/-! ## Owners -/

theorem Secret.addOwners_ownedBy {jobs : List Job} (h : jobs ≠ []) (secret : Secret) :
    (secret.addOwners (jobs.map Job.ownerReference)).OwnedBy jobs := by
  obtain ⟨job,jobs,rfl⟩ := List.exists_cons_of_ne_nil h
  by_cases hpresent : ∃ present ∈ secret.ownerReferences, present.uid = job.uid
  · obtain ⟨present,hmem,huid⟩ := hpresent
    exact ⟨present,List.mem_append_left _ hmem,job,List.mem_cons_self,huid⟩
  · refine ⟨job.ownerReference,List.mem_append_right _ (List.mem_filter.mpr ⟨List.mem_cons_self,?_⟩),job,
      List.mem_cons_self,rfl⟩
    rw [Bool.not_eq_true']
    refine List.any_eq_false.mpr fun present hmem huid => hpresent ⟨present,hmem,?_⟩
    exact of_decide_eq_true huid

theorem setOwnersFrom_frame (refs : List OwnerReference) (i : ℕ) (names : List String) (c : Cluster) :
    (setOwnersFrom a refs i names c).1.createdSecrets = c.createdSecrets ∧
    (setOwnersFrom a refs i names c).1.createdJobs = c.createdJobs ∧
    ∀ name ∉ names, (setOwnersFrom a refs i names c).1.secrets.lookup name = c.secrets.lookup name := by
  induction names generalizing i c with
  | nil => exact ⟨rfl,rfl,fun _ _ => rfl⟩
  | cons first names ih =>
    rw [setOwnersFrom]
    split
    · exact ⟨rfl,rfl,fun _ _ => rfl⟩
    · exact ⟨rfl,rfl,fun _ _ => rfl⟩
    · dsimp only
      split
      · exact ⟨rfl,rfl,fun _ _ => rfl⟩
      · refine ⟨rfl,rfl,fun name hname => ?_⟩
        exact Finmap.lookup_insert_of_ne _ (not_or.mp (mt List.mem_cons.mpr hname)).1
      · obtain ⟨hsecrets,hjobs,hlookup⟩ := ih (i + 1) { c with secrets := c.secrets.insert first _ }
        refine ⟨hsecrets,hjobs,fun name hname => ?_⟩
        obtain ⟨hne,hrest⟩ := not_or.mp (mt List.mem_cons.mpr hname)
        exact (hlookup name hrest).trans (Finmap.lookup_insert_of_ne _ hne)

section First
variable {refs : List OwnerReference} {i : ℕ} {first : String} {names : List String} {c : Cluster} {secret : Secret}
variable (hsecret : c.secrets.lookup first = some secret)
include hsecret

theorem setOwnersFrom_cons_of_done {value : Unit} (hget : a.getSecret i = none) (hupdate : a.updateSecret i = .done value) :
    setOwnersFrom a refs i (first :: names) c =
      setOwnersFrom a refs (i + 1) names { c with secrets := c.secrets.insert first (secret.addOwners refs) } := by
  simp only [setOwnersFrom, hget, hsecret, hupdate]

/-- After an error the other secrets are left as they are. -/
theorem setOwnersFrom_cons_of_lost {value : Unit} {err : String} (hget : a.getSecret i = none)
    (hupdate : a.updateSecret i = .lost value err) : (setOwnersFrom a refs i (first :: names) c).1 =
      { c with secrets := c.secrets.insert first (secret.addOwners refs) } := by
  simp only [setOwnersFrom, hget, hsecret, hupdate]

theorem setOwnersFrom_cons_of_refused (h : ¬(a.getSecret i = none ∧ (a.updateSecret i).carriedOut = true)) :
    (setOwnersFrom a refs i (first :: names) c).1 = c := by
  simp only [setOwnersFrom, hsecret]
  cases hget : a.getSecret i with
  | some err => rfl
  | none =>
    cases hupdate : a.updateSecret i with
    | refused err => rfl
    | done value => exact absurd ⟨hget,by rw [hupdate]; rfl⟩ h
    | lost value err => exact absurd ⟨hget,by rw [hupdate]; rfl⟩ h

end First

/-- Of `count` secrets, counted from `i` on, each gets its owners: it is read and written, and the loop goes on until the
last one. -/
def OwnersSet (i count : ℕ) : Prop := ∀ k < count,
  (a.getSecret (i + k) = none ∧ (a.updateSecret (i + k)).carriedOut = true) ∧
    (k + 1 < count → (a.updateSecret (i + k)).answered = true)

theorem ownersSet_succ_iff (i count : ℕ) : OwnersSet a i (count + 1) ↔
    ((a.getSecret i = none ∧ (a.updateSecret i).carriedOut = true) ∧ (0 < count → (a.updateSecret i).answered = true)) ∧
      OwnersSet a (i + 1) count := by
  simp only [OwnersSet, Nat.forall_lt_succ_left, Nat.add_zero, Nat.add_right_comm i 1, Nat.add_assoc,
    Nat.add_lt_add_iff_right]

/-- The loop reaches all secrets if and only if no request fails before the last one is written. -/
theorem setOwnersFrom_ownedBy_iff {jobs : List Job} (hjobs : jobs ≠ []) {i : ℕ} {names : List String}
    {c : Cluster} (hnodup : names.Nodup)
    (hbare : ∀ name ∈ names, ∃ secret, c.secrets.lookup name = some secret ∧ secret.ownerReferences = []) :
    (∀ name ∈ names, ∀ secret ∈ (setOwnersFrom a (jobs.map Job.ownerReference) i names c).1.secrets.lookup name,
      secret.OwnedBy jobs) ↔ OwnersSet a i names.length := by
  induction names generalizing i c with
  | nil => simp [OwnersSet]
  | cons first names ih =>
    obtain ⟨hnotin,hnodup⟩ := List.nodup_cons.mp hnodup
    obtain ⟨secret,hsecret,hnone⟩ := hbare first List.mem_cons_self
    let c' : Cluster := { c with secrets := c.secrets.insert first (secret.addOwners (jobs.map Job.ownerReference)) }
    have hbare' : ∀ name ∈ names, ∃ s, c'.secrets.lookup name = some s ∧ s.ownerReferences = [] := by
      intro name hname
      have hne : name ≠ first := fun h => hnotin (h ▸ hname)
      rw [Finmap.lookup_insert_of_ne _ hne]
      exact hbare name (List.mem_cons_of_mem _ hname)
    have howned : ∀ owned ∈ c'.secrets.lookup first, owned.OwnedBy jobs := by
      intro owned h
      rw [Finmap.lookup_insert] at h
      cases h
      exact secret.addOwners_ownedBy hjobs
    rw [List.length_cons, ownersSet_succ_iff, List.forall_mem_cons]
    by_cases hok : a.getSecret i = none ∧ (a.updateSecret i).carriedOut = true
    · cases hupdate : a.updateSecret i with
      | refused err => simp [hupdate, Outcome.carriedOut] at hok
      | done value =>
        rw [setOwnersFrom_cons_of_done a hsecret hok.1 hupdate, (setOwnersFrom_frame a _ _ names c').2.2 first hnotin,
          ih hnodup hbare']
        simp only [hok.1, Outcome.carriedOut, Outcome.answered, implies_true, and_self, true_and]
        exact and_iff_right howned
      | lost value err =>
        rw [setOwnersFrom_cons_of_lost a hsecret hok.1 hupdate, and_iff_right howned]
        cases names with
        | nil => simp [OwnersSet, hok.1, Outcome.carriedOut]
        | cons second names =>
          obtain ⟨other,hother,hnone⟩ := hbare' second List.mem_cons_self
          refine iff_of_false (fun hall => not_ownedBy hnone (hall second List.mem_cons_self other hother)) fun hset => ?_
          exact absurd (hset.1.2 (Nat.zero_lt_succ _)) Bool.false_ne_true
    · rw [setOwnersFrom_cons_of_refused a hsecret hok]
      exact iff_of_false (fun hall => not_ownedBy hnone (hall.1 secret hsecret)) fun hset => hok hset.1.1

/-! ## The whole command -/

/-- The answers to the requests after the secrets: all jobs are created, and the command does not wait, or sees the jobs
completed, or gets the list of the jobs, or has made the jobs owners of each `Secret`. -/
def JobsAnswered (capture : CaptureObject) (secretCount : ℕ) : Prop :=
  ∃ jobs, (translator tools o a).translateCaptureToJobs capture = .ok jobs ∧ JobsCreated a jobs.length ∧
    (o.nowait = true ∨ (∃ round ∈ a.jobRounds, ∀ i < jobs.length, round i = some true) ∨
      (∃ listed, a.listJobs = .ok listed) ∨ OwnersSet a 0 secretCount)

theorem waitUntilJobsComplete_iff (jobs : List Job) : waitUntilJobsComplete a jobs = true ↔
    ∃ round ∈ a.jobRounds, ∀ i < jobs.length, round i = some true := by
  simp [waitUntilJobsComplete]

theorem jobsAnswered_iff {capture : CaptureObject} {jobs : List (String × Capture.JobEnv)} {created : List Job} {count : ℕ}
    (htranslate : (translator tools o a).translateCaptureToJobs capture = .ok jobs) (hmade : JobsCreated a jobs.length)
    (hlen : created.length = jobs.length) : JobsAnswered tools o a capture count ↔
      (o.nowait = true ∨ waitUntilJobsComplete a created = true ∨ (∃ listed, a.listJobs = .ok listed) ∨
        OwnersSet a 0 count) := by
  rw [waitUntilJobsComplete_iff, hlen]
  constructor
  · rintro ⟨jobs',heq,-,hrest⟩
    cases htranslate.symm.trans heq
    exact hrest
  · intro hrest
    exact ⟨jobs,htranslate,hmade,hrest⟩

theorem createJobs_outcome (capture : CaptureObject) {c : Cluster} (hjobs : c.createdJobs = []) :
    (∃ c' err, createJobs tools o a capture c = (c',.error err) ∧ c'.secrets = c.secrets ∧
      c'.createdSecrets = c.createdSecrets ∧
      ¬∃ jobs, (translator tools o a).translateCaptureToJobs capture = .ok jobs ∧ JobsCreated a jobs.length) ∨
    (∃ c' created jobs, createJobs tools o a capture c = (c',.ok created) ∧ c'.secrets = c.secrets ∧
      c'.createdSecrets = c.createdSecrets ∧ c'.createdJobs = created ∧
      (translator tools o a).translateCaptureToJobs capture = .ok jobs ∧ JobsCreated a jobs.length ∧
      created.length = jobs.length) := by
  unfold createJobs
  cases ht : (translator tools o a).translateCaptureToJobs capture with
  | error err => exact .inl ⟨c,.translate err,rfl,rfl,rfl,by simp⟩
  | ok jobs =>
    let specs : List JobSpec := jobs.map fun job => { template := job }
    have hspecs : specs.length = jobs.length := List.length_map _
    obtain ⟨hsecrets,hcreated⟩ := createJobsFrom_frame tools o a 0 specs [] c
    by_cases h : JobsCreated a jobs.length
    · obtain ⟨created,hok,hmade,hlen⟩ := createJobsFrom_succeeds tools o a 0 specs hjobs
        fun k hk => (Nat.zero_add k).symm ▸ h k (hspecs ▸ hk)
      refine .inr ⟨_,created,jobs,Prod.ext rfl hok,hsecrets,hcreated,hmade,rfl,h,?_⟩
      simpa [hspecs] using hlen
    · obtain ⟨err,herr⟩ := createJobsFrom_fails tools o a 0 specs [] c
        fun hall => h fun k hk => Nat.zero_add k ▸ hall k (hspecs.symm ▸ hk)
      refine .inl ⟨_,err,Prod.ext rfl herr,hsecrets,hcreated,?_⟩
      rintro ⟨jobs',heq,hall⟩
      cases heq
      exact h hall

theorem owners_noOrphans_iff {capture : CaptureObject} {c : Cluster} (hbare : c.Bare (secretNames capture))
    (hsome : secretNames capture ≠ []) (hjobs : c.createdJobs ≠ []) :
    (setSecretOwnerReferences a capture c.createdJobs c).1.NoOrphans ↔ OwnersSet a 0 (secretNames capture).length := by
  rw [setSecretOwnerReferences, if_neg (not_or.mpr ⟨hsome,hjobs⟩)]
  obtain ⟨hcreated,hmade,-⟩ :=
    setOwnersFrom_frame a (c.createdJobs.map Job.ownerReference) 0 (secretNames capture) c
  rw [Cluster.NoOrphans, hcreated, hmade, hbare.created, setOwnersFrom_ownedBy_iff a hjobs hbare.nodup hbare.unowned]

theorem noOrphans_of_createdSecrets {c : Cluster} (h : c.createdSecrets = []) : c.NoOrphans := by
  intro name hname
  rw [h] at hname
  cases hname

theorem runCapture_createdSecrets {capture : CaptureObject} (hnone : (secretNames capture) = []) {c : Cluster}
    (hjobs : c.createdJobs = []) : (runCapture tools o a capture c).1.createdSecrets = c.createdSecrets := by
  unfold runCapture
  by_cases hcheck : (o.cleanUpAfterUpload && !hasRemoteDestination o) = true
  · rw [if_pos hcheck]
  rw [if_neg hcheck]
  rcases createJobs_outcome tools o a capture hjobs with
    ⟨c',err,heq,-,hcreated,-⟩ | ⟨c',created,jobs,heq,-,hcreated,-⟩
  · simpa only [heq] using hcreated
  · have howners : setSecretOwnerReferences a capture created c' = (c',none) := if_pos (.inl hnone)
    simp only [heq, howners, hnone, deleteSecretsFrom]
    split_ifs
    · exact hcreated
    · exact hcreated
    · exact hcreated

theorem runCapture_noOrphans_iff {capture : CaptureObject} {c : Cluster} (hbare : c.Bare (secretNames capture))
    (hjobs : c.createdJobs = []) (hremote : secretNames capture ≠ [] → hasRemoteDestination o = true) :
    (∀ err, (runCapture tools o a capture c).2 = some err → (runCapture tools o a capture c).1.NoOrphans) ↔
      (secretNames capture ≠ [] → JobsAnswered tools o a capture (secretNames capture).length) := by
  by_cases hsome : secretNames capture = []
  · refine iff_of_true (fun err _ => ?_) fun hne => absurd hsome hne
    exact noOrphans_of_createdSecrets ((runCapture_createdSecrets tools o a hsome hjobs).trans (hsome ▸ hbare.created))
  have hcheck : (o.cleanUpAfterUpload && !hasRemoteDestination o) = false := by simp [hremote hsome]
  rw [runCapture, if_neg (by simp [hcheck])]
  rcases createJobs_outcome tools o a capture hjobs with
    ⟨c',err,heq,hsecrets,hcreated,hno⟩ | ⟨c',created,jobs,heq,hsecrets,hcreated,rfl,htranslate,hmade,hlen⟩
  · have hbare' := hbare.frame hsecrets hcreated
    refine iff_of_false (fun hall => hsome (hbare'.noOrphans_iff.mp ?_)) ?_
    · simpa only [heq] using hall _ (by rw [heq])
    · intro hall
      obtain ⟨jobs,htranslate,hmade,-⟩ := hall hsome
      exact hno ⟨jobs,htranslate,hmade⟩
  · have hbare' := hbare.frame hsecrets hcreated
    have hnonempty : c'.createdJobs ≠ [] := by
      rw [← List.length_pos_iff, hlen, List.length_pos_iff]
      exact Capture.Translator.translateCaptureToJobs_ne_nil htranslate
    rw [forall_prop_of_true hsome, jobsAnswered_iff tools o a htranslate hmade hlen,
      ← owners_noOrphans_iff a hbare' hsome hnonempty]
    simp only [heq]
    by_cases hnowait : o.nowait = true
    · simp [hnowait]
    by_cases hwait : waitUntilJobsComplete a c'.createdJobs = true
    · simp [hnowait, hwait]
    cases hlist : a.listJobs with
    | ok jobs => simp [hnowait, hwait, getCaptureAndPrintCaptureResult, hlist]
    | error err => simp [hnowait, hwait, getCaptureAndPrintCaptureResult, hlist]

theorem remote_of_requests (h : requests o a ≠ []) : hasRemoteDestination o = true := by
  by_cases hblob : o.blobUpload = ""
  · by_cases hs3 : o.s3Bucket = ""
    · exact absurd (by simp [requests, hblob, hs3]) h
    · simp [hasRemoteDestination, hs3]
  · simp [hasRemoteDestination, hblob]

/-- The answers that leave no `Secret` behind an error. If the options are accepted and the first `Secret` is created,
then this and the creation of the other one are answered, and so are the requests for the jobs. -/
def Provided (secrets : Finmap fun _ : String => Secret) : Prop :=
  ∀ ns selected, a.rawNamespace = .ok ns → checkOpts tools o = .ok selected →
    ∀ first ∈ (requests o a).head?, first.Happens secrets →
      (∀ r ∈ requests o a, r.Succeeds secrets) ∧
        JobsAnswered tools o a (madeCapture o a ns selected) (requests o a).length

end Command

def Cluster.before (secrets : Finmap fun _ : String => Secret) (jobs : List Job) : Cluster where
  secrets := secrets
  jobs := jobs

/-- A command that fails leaves no `Secret` without an owner, if and only if the answers of the server provide for it. -/
theorem failed_create_leaves_no_orphans_iff (tools : Tools) (o : Opts) (a : Answers)
    (secrets : Finmap fun _ : String => Secret) (jobs : List Job) :
    (∀ err, (create tools o a (.before secrets jobs)).2 = some err →
      (create tools o a (.before secrets jobs)).1.NoOrphans) ↔ Provided tools o a secrets := by
  have hbefore : (Cluster.before secrets jobs).Bare [] := ⟨rfl,List.nodup_nil,by simp⟩
  unfold create Provided
  cases hns : a.rawNamespace with
  | error err => simp [hbefore.noOrphans_iff]
  | ok ns =>
    cases hopts : checkOpts tools o with
    | error err => simp [createCaptureF, hopts, hbefore.noOrphans_iff]
    | ok selected =>
      rcases createCaptureF_outcome tools o a hopts ns hbefore with
        ⟨c,err,names,heq,hbare,⟨r,hr,hfails⟩,hfirst⟩ | ⟨c,heq,hbare,hcreated,hlen,hall⟩
      · have hleft : (∀ err', some err = some err' → c.NoOrphans) ↔ names = [] := by
          rw [← hbare.noOrphans_iff]
          exact ⟨fun h => h err rfl,fun h _ _ => h⟩
        simp only [heq]
        rw [hleft, hfirst]
        constructor
        · intro hnone _ _ _ _ first hmem hok
          exact absurd hok (hnone first hmem)
        · intro hprovided first hmem hok
          exact hfails ((hprovided ns selected rfl rfl first hmem hok).1 r hr)
      · simp only [heq]
        have hempty : secretNames (madeCapture o a ns selected) ≠ [] ↔ requests o a ≠ [] := by
          rw [← List.length_pos_iff, hlen, List.length_pos_iff]
        rw [runCapture_noOrphans_iff tools o a hbare hcreated fun hsome => remote_of_requests o a (hempty.mp hsome),
          hempty, hlen]
        constructor
        · intro hanswered _ _ hns' hopts' first hmem _
          cases hns'
          cases hopts'
          refine ⟨hall,hanswered ?_⟩
          rintro hnil
          rw [hnil] at hmem
          cases hmem
        · intro hprovided hsome
          have hmem := List.head_mem hsome
          exact (hprovided ns selected rfl rfl _ (List.head?_eq_some_head hsome) (hall _ hmem).happens).2

def sampleTools (order : FiniteMap.Order String) : Tools where
  ip := ⟨fun _ => none,nofun,nofun⟩
  selectors :=
    { parses := fun s => !s.matchLabels.isEmpty || !s.matchExpressions.isEmpty
      labelValue := fun _ => true
      parses_empty := rfl
      parses_hostname := fun names _ => by simp [hostnameSelector]
      parses_capturePod := rfl }
  convertSelectorToLabelsMap selector := .ok (if selector = "" then [] else [("kubernetes.io/os","linux")])
  order := order
  wholeSeconds duration := duration.toInt / 1000000000

def blobCapture : Opts := { name := "nightly", blobUpload := "sas-url" }

def jobRefused : Answers where
  now := ⟨⟨2025,6,1,2,0,0⟩,by decide⟩
  rawNamespace := .ok "default"
  createBlobSecret := .done "x7k2p"
  createS3Secret := .done "m4q9z"
  api :=
    { cluster :=
        { namespaces := [⟨"default",[]⟩]
          pods := []
          nodes := [⟨"node-a",[("kubernetes.io/os","linux"),("kubernetes.io/hostname","node-a")]⟩]
          nodup := by decide
          named := by decide }
      selects := fun s labels => (s.matchLabels.all fun label => labels.lookup label.1 = some label.2) &&
        s.matchExpressions.all fun r => (labels.lookup r.key).any r.values.contains
      failure := fun _ => none }
  captureSecret _ := .found
  captureClaim _ := .notFound
  createJob _ := .refused "exceeded quota"
  getSecret _ := none
  updateSecret _ := .done ()
  jobRounds := []
  deleteJob _ := .done ()
  deleteSecret _ := .done ()
  listJobs := .ok []

def linuxNodes : Selected := ⟨[],[],[("kubernetes.io/os","linux")],[],[]⟩

theorem defaultHostPath_resolved :
    ∃ path, resolveHostPath (some (ascii "retina")) (ascii "/var/log/retina/captures") = .ok path := by
  have hpath := (validateHostPath_eq_ok_iff (ascii "retina") (ascii "/var/log/retina/captures") _).mpr
    ⟨by decide,by decide,by decide,by decide,by decide,rfl⟩
  exact ⟨_,by rw [resolveHostPath, hpath]; rfl⟩

def nodeA : CaptureTargetsOnNode := CaptureTargetsOnNode.addNodeInterface ∅ "node-a"

/-- The order of the nodes does not matter, since there is one. -/
theorem nodeA_targeted (order : FiniteMap.Order String) :
    calculateCaptureTargetsOnNode (sampleTools order).selectors jobRefused.api order
      (captureTarget blobCapture linuxNodes) "default" = .ok (nodeA.updateNodeOS "node-a" "linux") := by
  have hos : updateCaptureTargetsOSOnNode (sampleTools order).selectors jobRefused.api order nodeA =
      .ok (nodeA.updateNodeOS "node-a" "linux") := by
    have hkeys : nodeA.keys = {"node-a"} := by decide
    rw [updateCaptureTargetsOSOnNode, hkeys, FiniteMap.Order.list_singleton]
    rfl
  change (do
    let targets ← updateCaptureTargetsOSOnNode (sampleTools order).selectors jobRefused.api order nodeA
    validateNoRunningWindowsCapture (sampleTools order).selectors jobRefused.api targets
    .ok targets) = _
  rw [hos]
  rfl

theorem blobCapture_translated (order : FiniteMap.Order String) :
    ∃ jobs, (translator (sampleTools order) blobCapture jobRefused).translateCaptureToJobs
      (madeCapture blobCapture jobRefused "default" linuxNodes) = .ok jobs := by
  let capture := madeCapture blobCapture jobRefused "default" linuxNodes
  let tr := translator (sampleTools order) blobCapture jobRefused
  obtain ⟨path,hpath⟩ := defaultHostPath_resolved
  replace hpath : resolveHostPath capture.spec.hostPath tr.captureHostPathBaseDir = .ok path := hpath
  have hvalid : validateCapture tr.ip tr.captureHostPathBaseDir capture.spec = .ok () := by
    unfold validateCapture
    rw [hpath]
    rfl
  have htime : (stringToTime (timeToString (some jobRefused.now))).isNone = false := by
    rw [stringToTime_timeToString]
    rfl
  have hrender : ∀ env, ∃ jobs, tr.renderJobs capture (nodeA.updateNodeOS "node-a" "linux") env = .ok jobs := by
    intro env
    have hkeys : (nodeA.updateNodeOS "node-a" "linux").keys ≠ ∅ := by decide
    rw [Translator.renderJobs, if_neg hkeys]
    exact ⟨_,if_neg (Bool.not_eq_true _ ▸ htime)⟩
  have houtput : Translator.checkOutput capture path = .ok () := if_neg fun h => absurd h.2.2.2 (by decide)
  obtain ⟨jobs,hjobs⟩ := hrender _
  exact ⟨jobs,Translator.translateCaptureToJobs_of_steps hvalid hpath rfl (nodeA_targeted order) houtput rfl hjobs rfl⟩

/-- The `Secret` with the URL is left behind when no job can be created. -/
theorem refused_job_leaves_secret :
    (Cluster.before ∅ []).secrets.lookup "capture-blob-upload-secretx7k2p" = none ∧
    ∀ order, let result := create (sampleTools order) blobCapture jobRefused (.before ∅ [])
      result.2 = some (.unwrapped "exceeded quota") ∧
        result.1.createdSecrets = ["capture-blob-upload-secretx7k2p"] ∧
        result.1.secrets.lookup "capture-blob-upload-secretx7k2p" =
          some { data := [("blob-upload-url","sas-url")], captureName := "nightly" } ∧
        result.1.createdJobs = [] := by
  refine ⟨by decide,fun order => ?_⟩
  let c : Cluster := (Cluster.before ∅ []).addSecret "nightly" (blobRequest blobCapture jobRefused)
    "capture-blob-upload-secretx7k2p"
  obtain ⟨jobs,hjobs⟩ := blobCapture_translated order
  obtain ⟨job,jobs,rfl⟩ := List.exists_cons_of_ne_nil (Translator.translateCaptureToJobs_ne_nil hjobs)
  have hcreate : createJobs (sampleTools order) blobCapture jobRefused
      (madeCapture blobCapture jobRefused "default" linuxNodes) c = (c,.error (.unwrapped "exceeded quota")) := by
    rw [createJobs, hjobs]
    rfl
  have hresult : create (sampleTools order) blobCapture jobRefused (.before ∅ []) =
      (c,some (.unwrapped "exceeded quota")) := by
    change runCapture (sampleTools order) blobCapture jobRefused
      (madeCapture blobCapture jobRefused "default" linuxNodes) c = _
    rw [runCapture, hcreate]
    rfl
  rw [hresult]
  exact ⟨rfl,rfl,by decide,rfl⟩

end Retina.Cli
