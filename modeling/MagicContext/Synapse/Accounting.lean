import Mathlib.Data.List.MinMax
import MagicContext.Synapse.Jobs

/-!
# The accounting of batch jobs

Two indexes and two counters follow the jobs.  A publication replaces a job by its completed form,
and retention then removes completed jobs until both limits hold again.  `failJob` leaves a
completed job alone; `publishReady` does not look, so what holds is about runs in which no vectors
are published for a job that has completed.

## What is here

* `Accounted` — the indexes, the counters and the limits of one table.
* `JobAccounting` — in every table that a run reaches, and what becomes of completed jobs.
* `Counted`, `Evolves` — what carries it through removals and within a publication.
* `job_accounting` — it holds of every run that publishes vectors for no completed job.
* `Sample.published_twice` — a run that publishes vectors twice keeps bytes that no job has.
-/

namespace MagicContext.Synapse

open JobTable Table Jobs

/-! ## What holds -/

structure Accounted (t : JobTable) (jobs : Jobs) : Prop where
  keyed : ∀ key seq, jobs.byKey key = some seq ↔ ∃ job, jobs.job seq = some job ∧ job.key = key
  queued : jobs.queuedTextBytes =
    jobs.bySeq.total fun job => if job.isCompleted then 0 else job.textBytes
  texts : ∀ job ∈ jobs.bySeq, ∀ items, job.state = .queued items → job.textBytes = textBytes items
  retained : jobs.retainedResultBytes = jobs.bySeq.total Job.resultBytes
  subtractions : jobs.underflowed = false
  completed : jobs.bySeq.count Job.isCompleted ≤ t.limits.maxRetainedJobs
  bytes : jobs.retainedResultBytes ≤ t.limits.maxRetainedResultBytes

structure JobAccounting (t : JobTable) (calls : List Call) : Prop where
  accounted : ∀ before, before <+: calls → Accounted t (t.run before).jobs
  startedOnce : (t.run calls).started.Nodup
  /-- A completed job is removed or stays as it is. -/
  settled : ∀ earlier later, earlier <+: later → later <+: calls → ∀ seq job job',
    (t.run earlier).jobs.job seq = some job → job.isCompleted = true →
    (t.run later).jobs.job seq = some job' → job' = job

/-- The call brings vectors of the right shape for a job that has completed. -/
def Call.Republishes (jobs : Jobs) : Call → Prop
  | publishReady seq vectors _ _ => ∃ job, jobs.job seq = some job ∧ job.isCompleted = true ∧
      vectors.length = job.itemMeta.length ∧ ∀ vector ∈ vectors, vector.length = job.dimensions
  | _ => False

instance (jobs : Jobs) : (call : Call) → Decidable (call.Republishes jobs)
  | .publishReady seq vectors _ _ => inferInstanceAs (Decidable (∃ job ∈ jobs.job seq,
      job.isCompleted = true ∧ vectors.length = job.itemMeta.length ∧
        ∀ vector ∈ vectors, vector.length = job.dimensions))
  | .admitted .. | .start .. | .publishFailed .. | .poll .. | .keyIsRetained .. | .sweep ..
  | .closeAdmission | .clear => inferInstanceAs (Decidable False)

/-! ## What carries it -/

structure Job.Fits (job : Job) : Prop where
  completed : job.isCompleted = true → job.textBytes = 0
  pending : job.isCompleted = false → job.resultBytes = 0
  texts : ∀ items, job.state = .queued items → job.textBytes = Synapse.textBytes items

structure Counted (jobs : Jobs) : Prop where
  keyed : ∀ key seq, jobs.byKey key = some seq ↔ ∃ job, jobs.job seq = some job ∧ job.key = key
  below : ∀ seq job, jobs.job seq = some job → seq < jobs.nextSeq
  fits : ∀ seq job, jobs.job seq = some job → job.Fits
  queued : jobs.queuedTextBytes = jobs.bySeq.total Job.textBytes
  retained : jobs.retainedResultBytes = jobs.bySeq.total Job.resultBytes
  subtractions : jobs.underflowed = false

/-- What becomes of the jobs that were there. -/
structure Evolves (jobs jobs' : Jobs) : Prop where
  next : jobs.nextSeq ≤ jobs'.nextSeq
  old : ∀ seq job', jobs'.job seq = some job' → seq < jobs.nextSeq →
    ∃ job, jobs.job seq = some job ∧ (job.isCompleted = true → job' = job) ∧
      (job'.isQueued = true → job.isQueued = true)

variable {t : JobTable} {jobs jobs' : Jobs} {seq : Nat} {job : Job}

theorem Evolves.refl (jobs : Jobs) : Evolves jobs jobs :=
  ⟨le_refl _, fun _ job' hjob _ => ⟨job', hjob, fun _ => rfl, id⟩⟩

theorem Evolves.trans {jobs'' : Jobs} (h : Evolves jobs jobs') (h' : Evolves jobs' jobs'') :
    Evolves jobs jobs'' where
  next := h.next.trans h'.next
  old := by
    intro seq job'' hjob'' hlt
    obtain ⟨job', hjob', hsame', hqueued'⟩ := h'.old seq job'' hjob'' (hlt.trans_le h.next)
    obtain ⟨job, hjob, hsame, hqueued⟩ := h.old seq job' hjob' hlt
    refine ⟨job, hjob, fun hcompleted => ?_, fun hq => hqueued (hqueued' hq)⟩
    obtain rfl := hsame hcompleted
    exact hsame' hcompleted

theorem job_eq_some : jobs.job seq = some job ↔ job ∈ jobs.bySeq ∧ job.seq = seq :=
  get_eq_some

theorem job_of_mem (h : job ∈ jobs.bySeq) : jobs.job job.seq = some job := get_key h

theorem job_setJob (jobs : Jobs) (job : Job) (k : Nat) :
    (jobs.setJob job).job k = if job.seq = k then some job else jobs.job k :=
  get_put k

theorem Counted.accounted (h : Counted jobs)
    (hcompleted : jobs.bySeq.count Job.isCompleted ≤ t.limits.maxRetainedJobs)
    (hbytes : jobs.retainedResultBytes ≤ t.limits.maxRetainedResultBytes) : Accounted t jobs where
  keyed := h.keyed
  queued := by
    rw [h.queued]
    refine total_congr fun job hjob => ?_
    split
    · rename_i hc
      exact (h.fits _ job (job_of_mem hjob)).completed hc
    · rfl
  texts job hjob := (h.fits _ job (job_of_mem hjob)).texts
  retained := h.retained
  subtractions := h.subtractions
  completed := hcompleted
  bytes := hbytes

/-! ## Removals -/

theorem job_remove (jobs : Jobs) (seq k : Nat) :
    (jobs.remove seq).job k = if k = seq then none else jobs.job k := by
  unfold remove
  cases hjob : jobs.job seq with
  | none =>
    by_cases hk : k = seq
    · rw [if_pos hk, hk]
      exact hjob
    · rw [if_neg hk]
  | some job =>
    change (jobs.bySeq.delete fun j => decide (j.seq = seq)).get k = _
    rw [get_delete]
    cases hk : jobs.job k with
    | none =>
      rw [show jobs.bySeq.get k = none from hk]
      split <;> rfl
    | some other =>
      rw [show jobs.bySeq.get k = some other from hk, Option.filter_some, (job_eq_some.mp hk).2]
      by_cases heq : k = seq
      · simp [heq]
      · simp [heq]

theorem nextSeq_remove (jobs : Jobs) (seq : Nat) : (jobs.remove seq).nextSeq = jobs.nextSeq := by
  rw [remove]
  split <;> rfl

theorem evolves_remove (jobs : Jobs) (seq : Nat) : Evolves jobs (jobs.remove seq) where
  next := (nextSeq_remove jobs seq).ge
  old k job' hjob' _ := by
    rw [job_remove] at hjob'
    split at hjob'
    · cases hjob'
    · exact ⟨job', hjob', fun _ => rfl, id⟩

/-- What a removal leaves, for a number that is summed over the jobs. -/
theorem total_remove (hjob : jobs.job seq = some job) (f : Job → Nat) :
    (jobs.remove seq).bySeq.total f + f job = jobs.bySeq.total f := by
  rw [remove, hjob]
  exact total_delete hjob f

theorem counted_remove (h : Counted jobs) (seq : Nat) : Counted (jobs.remove seq) := by
  cases hjob : jobs.job seq with
  | none => rwa [remove, hjob]
  | some job =>
    have htext := total_remove hjob Job.textBytes
    have hresult := total_remove hjob Job.resultBytes
    have hqueued := h.queued
    have hretained := h.retained
    refine ⟨fun key k => ?_, fun k other hk => ?_, fun k other hk => ?_, ?_, ?_, ?_⟩
    · rw [job_remove]
      have hbyKey : (jobs.remove seq).byKey = Function.update jobs.byKey job.key none := by
        rw [remove, hjob]
        rfl
      rw [hbyKey]
      by_cases hkey : key = job.key
      · subst hkey
        rw [Function.update_self]
        refine ⟨nofun, fun ⟨other, hother, hsame⟩ => ?_⟩
        split at hother
        · cases hother
        · rename_i hk
          -- one key has one number
          have hfirst := (h.keyed job.key seq).mpr ⟨job, hjob, rfl⟩
          rw [(h.keyed job.key k).mpr ⟨other, hother, hsame⟩] at hfirst
          exact absurd (Option.some.inj hfirst) hk
      · rw [Function.update_of_ne hkey, h.keyed]
        split
        · rename_i hk
          subst hk
          refine ⟨fun ⟨other, hother, hsame⟩ => ?_, nofun⟩
          cases hjob.symm.trans hother
          exact absurd hsame.symm hkey
        · rfl
    · rw [job_remove] at hk
      rw [nextSeq_remove]
      split at hk
      · cases hk
      · exact h.below k other hk
    · rw [job_remove] at hk
      split at hk
      · cases hk
      · exact h.fits k other hk
    · have hle : job.textBytes ≤ jobs.queuedTextBytes := by omega
      have hnew : (jobs.remove seq).queuedTextBytes = jobs.queuedTextBytes - job.textBytes := by
        rw [remove, hjob]
        exact if_pos hle
      omega
    · have hle : job.resultBytes ≤ jobs.retainedResultBytes := by omega
      have hnew : (jobs.remove seq).retainedResultBytes =
          jobs.retainedResultBytes - job.resultBytes := by
        rw [remove, hjob]
        exact if_pos hle
      omega
    · have hle : ¬ jobs.queuedTextBytes < job.textBytes := by omega
      have hle' : ¬ jobs.retainedResultBytes < job.resultBytes := by omega
      rw [remove, hjob]
      simp [releaseText, releaseResult, h.subtractions, hle, hle']

theorem counted_removeAll (h : Counted jobs) (seqs : List Nat) : Counted (jobs.removeAll seqs) := by
  induction seqs generalizing jobs with
  | nil => exact h
  | cons seq seqs ih => exact ih (counted_remove h seq)

theorem evolves_removeAll (jobs : Jobs) (seqs : List Nat) : Evolves jobs (jobs.removeAll seqs) := by
  induction seqs generalizing jobs with
  | nil => exact Evolves.refl jobs
  | cons seq seqs ih => exact (evolves_remove jobs seq).trans (ih (jobs.remove seq))

/-- A removal keeps the table within its limits. -/
theorem within_remove (h : Counted jobs) (hwithin : t.withinRetention jobs = true) (seq : Nat) :
    t.withinRetention (jobs.remove seq) = true := by
  cases hjob : jobs.job seq with
  | none => rwa [remove, hjob]
  | some job =>
    have hcount := total_remove hjob fun job => if job.isCompleted then 1 else 0
    have hresult := total_remove hjob Job.resultBytes
    have hnew := (counted_remove h seq).retained
    have hretained := h.retained
    simp only [withinRetention, count_eq_total, Bool.and_eq_true, decide_eq_true_eq] at hwithin ⊢
    omega

theorem within_removeAll (h : Counted jobs) (hwithin : t.withinRetention jobs = true)
    (seqs : List Nat) : t.withinRetention (jobs.removeAll seqs) = true := by
  induction seqs generalizing jobs with
  | nil => exact hwithin
  | cons seq seqs ih => exact ih (counted_remove h seq) (within_remove h hwithin seq)

/-! ## Retention -/

/-- An order of the times, in which none comes first. -/
def age (job : Job) : Nat :=
  match job.completedAt with
  | none => 0
  | some completed => completed + 1

/-- Where no job is the oldest, no completed job is left beside the protected one. -/
theorem oldest_eq_nil {keep : Option Nat} (h : jobs.oldest keep = []) :
    ∀ seq job, jobs.job seq = some job → job.isCompleted = true → some seq = keep := by
  intro seq job hjob hcompleted
  by_contra hkeep
  have hcandidate : job ∈ jobs.bySeq.select
      fun job => job.isCompleted && decide (some job.seq ≠ keep) := by
    rw [mem_select, hcompleted, (job_eq_some.mp hjob).2, Bool.true_and]
    exact ⟨(job_eq_some.mp hjob).1, decide_eq_true hkeep⟩
  obtain ⟨least, hleast⟩ := Option.ne_none_iff_exists'.mp fun hnone =>
    List.ne_nil_of_mem hcandidate ((List.argmin_eq_none (f := age)).mp hnone)
  have hmem : least ∈ jobs.oldest keep := by
    rw [oldest, List.mem_filter, List.all_eq_true]
    refine ⟨List.argmin_mem hleast, fun other hother => ?_⟩
    have hle := List.le_of_mem_argmin hother hleast
    rw [age, age] at hle
    cases hl : least.completedAt with
    | none => simp
    | some a =>
      cases ho : other.completedAt with
      | none => simp [hl, ho] at hle
      | some b => simpa [hl, ho] using hle
  rw [h] at hmem
  cases hmem

theorem mem_oldest {keep : Option Nat} (h : job ∈ jobs.oldest keep) :
    job ∈ jobs.bySeq ∧ job.isCompleted = true := by
  have hmem := mem_select.mp (List.mem_of_mem_filter h)
  exact ⟨hmem.1, (Bool.and_eq_true_iff.mp hmem.2).1⟩

theorem enforceRetention_counted (keep : Option Nat) (ties : Nat → Nat) (rounds : Nat)
    (h : Counted jobs) : Counted (t.enforceRetention keep ties rounds jobs) ∧
      Evolves jobs (t.enforceRetention keep ties rounds jobs) := by
  induction rounds generalizing jobs with
  | zero => exact ⟨h, Evolves.refl jobs⟩
  | succ rounds ih =>
    unfold enforceRetention
    split
    · exact ⟨h, Evolves.refl jobs⟩
    · split
      · rename_i job _
        obtain ⟨hcounted, hevolves⟩ := ih (counted_remove h job.seq)
        exact ⟨hcounted, (evolves_remove jobs job.seq).trans hevolves⟩
      · cases keep with
        | none => exact ⟨h, Evolves.refl jobs⟩
        | some seq => exact ⟨counted_remove h seq, evolves_remove jobs seq⟩

/-- Without a completed job, nothing is retained. -/
theorem within_of_pending (h : Counted jobs)
    (hpending : ∀ seq job, jobs.job seq = some job → job.isCompleted = false) :
    t.withinRetention jobs = true := by
  have hcount : jobs.bySeq.count Job.isCompleted = 0 := by
    refine List.countP_eq_zero.mpr fun job hjob => ?_
    rw [hpending _ job (job_of_mem hjob)]
    nofun
  have hretained : jobs.retainedResultBytes = 0 := by
    rw [h.retained, @total_congr _ _ _ _ _ (fun _ => 0) fun job hjob =>
      (h.fits _ job (job_of_mem hjob)).pending (hpending _ job (job_of_mem hjob))]
    simp [total]
  simp [withinRetention, hcount, hretained]

/-- The loop comes to an end within its limits: every round removes a completed job, and the last
one removes the protected job. -/
theorem enforceRetention_within (ties : Nat → Nat) (rounds : Nat) (h : Counted jobs)
    (hrounds : jobs.bySeq.count Job.isCompleted < rounds) :
    t.withinRetention (t.enforceRetention (some seq) ties rounds jobs) = true := by
  induction rounds generalizing jobs with
  | zero => cases hrounds
  | succ rounds ih =>
    unfold enforceRetention
    split
    · assumption
    · split
      · rename_i job hjob
        obtain ⟨hmem, hcompleted⟩ := mem_oldest (List.mem_of_getElem? hjob)
        refine ih (counted_remove h job.seq) ?_
        have hcount := total_remove (job_of_mem hmem) fun job => if job.isCompleted then 1 else 0
        rw [← count_eq_total, ← count_eq_total, hcompleted] at hcount
        simp only [if_true] at hcount
        omega
      · rename_i hnone
        have hnil : jobs.oldest (some seq) = [] := by
          by_contra hne
          have hlt := Nat.mod_lt (ties rounds) (List.length_pos_iff.mpr hne)
          rw [List.getElem?_eq_none_iff] at hnone
          omega
        refine within_of_pending (counted_remove h seq) fun k job hjob => ?_
        rw [job_remove] at hjob
        split at hjob
        · cases hjob
        · rename_i hk
          by_contra hcompleted
          have hkeep := oldest_eq_nil hnil k job hjob (Bool.not_eq_false _ ▸ hcompleted)
          exact hk (Option.some.inj hkeep)

/-- What a publication leaves: the counters follow, and the limits hold. -/
structure Settles (t : JobTable) (jobs jobs' : Jobs) : Prop where
  counted : Counted jobs'
  evolves : Evolves jobs jobs'
  within : t.withinRetention jobs' = true

theorem enforce_settles {before : Jobs} (ties : Nat → Nat) (h : Counted jobs)
    (hevolves : Evolves before jobs) : Settles t before (t.enforce (some seq) ties jobs) := by
  obtain ⟨hcounted, hlater⟩ := enforceRetention_counted (some seq) ties _ h
  exact ⟨hcounted, hevolves.trans hlater, enforceRetention_within ties _ h (Nat.lt_succ_self _)⟩

/-! ## Calls -/

theorem settles_removeAll (h : Counted jobs) (hwithin : t.withinRetention jobs = true)
    (seqs : List Nat) : Settles t jobs (jobs.removeAll seqs) :=
  ⟨counted_removeAll h seqs, evolves_removeAll jobs seqs, within_removeAll h hwithin seqs⟩

theorem settles_sweepExpired (h : Counted jobs) (hwithin : t.withinRetention jobs = true)
    (now : Nat) : Settles t jobs (t.sweepExpired now jobs) :=
  settles_removeAll h hwithin _

/-- A job is replaced by one with its number and key. -/
structure Replaces (jobs jobs' : Jobs) (new : Job) : Prop where
  at_ : ∀ k, jobs'.job k = if new.seq = k then some new else jobs.job k
  byKey : jobs'.byKey = jobs.byKey
  next : jobs'.nextSeq = jobs.nextSeq

/-- The counters follow a replacement. -/
theorem counted_replace {new : Job} (h : Counted jobs) (hjob : jobs.job new.seq = some job)
    (hkey : new.key = job.key) (hfits : new.Fits) (hreplaces : Replaces jobs jobs' new)
    (hqueued : jobs'.queuedTextBytes = jobs'.bySeq.total Job.textBytes)
    (hretained : jobs'.retainedResultBytes = jobs'.bySeq.total Job.resultBytes)
    (hsub : jobs'.underflowed = false) : Counted jobs' := by
  refine ⟨fun key k => ?_, fun k other hk => ?_, fun k other hk => ?_, hqueued, hretained, hsub⟩
  · rw [hreplaces.byKey, h.keyed, hreplaces.at_]
    split
    · rename_i hk
      subst hk
      rw [hjob]
      simp [hkey]
    · rfl
  · rw [hreplaces.at_] at hk
    rw [hreplaces.next]
    split at hk
    · rename_i heq
      subst heq
      exact h.below new.seq job hjob
    · exact h.below k other hk
  · rw [hreplaces.at_] at hk
    split at hk
    · cases hk
      exact hfits
    · exact h.fits k other hk

/-- A pending job is replaced by its completed form, which has no text. -/
theorem counted_complete {new : Job} (h : Counted jobs) (hjob : jobs.job new.seq = some job)
    (hpending : job.isCompleted = false) (hcompleted : new.isCompleted = true)
    (hkey : new.key = job.key) (htext : new.textBytes = 0) :
    Counted { (jobs.setJob new).releaseText job.textBytes with
      retainedResultBytes := jobs.retainedResultBytes + new.resultBytes } := by
  have hsumText := @total_put_of_some _ _ _ jobs.bySeq _ new job hjob Job.textBytes
  have hsumResult := @total_put_of_some _ _ _ jobs.bySeq _ new job hjob Job.resultBytes
  have hnone := (h.fits _ job hjob).pending hpending
  have hqueued := h.queued
  have hretained := h.retained
  have hle : job.textBytes ≤ jobs.queuedTextBytes := by omega
  refine counted_replace h hjob hkey ⟨fun _ => htext, fun hp => ?_, fun items hq => ?_⟩
    ⟨get_put, rfl, rfl⟩ ?_ ?_ ?_
  · rw [hcompleted] at hp
    cases hp
  · rw [Job.isCompleted, hq] at hcompleted
    cases hcompleted
  · change wrappingSub jobs.queuedTextBytes job.textBytes = (jobs.bySeq.put new).total _
    rw [wrappingSub, if_pos hle]
    omega
  · change jobs.retainedResultBytes + new.resultBytes = (jobs.bySeq.put new).total _
    omega
  · change (jobs.underflowed || decide (jobs.queuedTextBytes < job.textBytes)) = false
    rw [h.subtractions, Bool.false_or, decide_eq_false_iff_not]
    omega

/-- A job that has not completed is replaced by one that is not queued. -/
theorem evolves_replace {new : Job} (hjob : jobs.job new.seq = some job)
    (hpending : job.isCompleted = false) (hqueued : new.isQueued = false)
    (hreplaces : Replaces jobs jobs' new) : Evolves jobs jobs' where
  next := hreplaces.next.ge
  old k job' hjob' _ := by
    rw [hreplaces.at_] at hjob'
    split at hjob'
    · rename_i hk
      cases hjob'
      subst hk
      refine ⟨job, hjob, fun hc => ?_, fun hq => ?_⟩
      · rw [hpending] at hc
        cases hc
      · rw [hqueued] at hq
        cases hq
    · exact ⟨job', hjob', fun _ => rfl, id⟩

theorem settles_failJob (h : Counted jobs) (hwithin : t.withinRetention jobs = true) (seq : Nat)
    (code message : String) (now : Nat) (ties : Nat → Nat) :
    Settles t jobs (t.failJob seq code message now ties jobs) := by
  unfold failJob
  cases hjob : jobs.job seq with
  | none => exact ⟨h, Evolves.refl jobs, hwithin⟩
  | some job =>
    obtain ⟨-, rfl⟩ := job_eq_some.mp hjob
    by_cases hcompleted : job.isCompleted = true
    · simp only [hcompleted, if_true]
      exact ⟨h, Evolves.refl jobs, hwithin⟩
    · have hpending := Bool.eq_false_iff.mpr hcompleted
      simp only [if_neg hcompleted]
      have hreplaces : Replaces jobs
          ((jobs.setJob (job.failedWith code message now)).releaseText job.textBytes)
          (job.failedWith code message now) := ⟨get_put, rfl, rfl⟩
      have hevolves := @evolves_replace jobs _ job (job.failedWith code message now) hjob hpending
        rfl hreplaces
      refine enforce_settles ties ?_ hevolves
      have hcounted := @counted_complete jobs job (job.failedWith code message now) h hjob hpending
        rfl rfl rfl
      rwa [show (job.failedWith code message now).resultBytes = 0
        from (h.fits _ job hjob).pending hpending] at hcounted

theorem settles_publishReady (h : Counted jobs) (hwithin : t.withinRetention jobs = true)
    (seq : Nat)
    (vectors : List (List Component)) (now : Nat) (ties : Nat → Nat)
    (hfirst : ¬ (Call.publishReady seq vectors now ties).Republishes jobs) :
    Settles t jobs (t.publishReady seq vectors now ties jobs) := by
  unfold publishReady
  cases hjob : jobs.job seq with
  | none => exact ⟨h, Evolves.refl jobs, hwithin⟩
  | some job =>
    obtain ⟨-, rfl⟩ := job_eq_some.mp hjob
    simp only
    split
    · exact settles_failJob h hwithin _ _ _ _ _
    · rename_i hlength
      split
      · exact settles_failJob h hwithin _ _ _ _ _
      · rename_i hdimensions
        have hpending : job.isCompleted = false := by
          refine Bool.eq_false_iff.mpr fun hcompleted => hfirst ⟨job, hjob, hcompleted, ?_, ?_⟩
          · exact not_not.mp hlength
          · simpa using hdimensions
        have hcounted := @counted_complete jobs job (t.readied job vectors now) h hjob hpending
          rfl rfl rfl
        refine enforce_settles ties hcounted ?_
        exact @evolves_replace _ _ job (t.readied job vectors now) hjob hpending rfl
          ⟨get_put, rfl, rfl⟩

theorem settles_start (h : Counted jobs) (hwithin : t.withinRetention jobs = true) (seq : Nat) :
    Settles t jobs (start seq jobs).2 := by
  unfold start
  cases hjob : jobs.job seq with
  | none => exact ⟨h, Evolves.refl jobs, hwithin⟩
  | some job =>
    obtain ⟨-, rfl⟩ := job_eq_some.mp hjob
    cases hstate : job.state with
    | queued items =>
      simp only [hstate]
      have hpending : job.isCompleted = false := by
        rw [Job.isCompleted, hstate]
      have hreplaces : Replaces jobs (jobs.setJob { job with state := .running })
        { job with state := .running } := ⟨get_put, rfl, rfl⟩
      have hsame : ∀ f : Job → Nat, f { job with state := .running } = f job →
          (jobs.setJob { job with state := .running }).bySeq.total f = jobs.bySeq.total f :=
        fun f hf => Nat.add_right_cancel
          ((@total_put_of_some _ _ _ jobs.bySeq _ { job with state := .running } job hjob
            f).trans (congrArg _ hf))
      refine ⟨@counted_replace jobs _ job { job with state := .running } h hjob rfl
        ⟨nofun, fun _ => (h.fits _ job hjob).pending hpending, nofun⟩ hreplaces ?_ ?_ h.subtractions,
        @evolves_replace jobs _ job { job with state := .running } hjob hpending rfl hreplaces, ?_⟩
      · exact h.queued.trans (hsame Job.textBytes rfl).symm
      · exact h.retained.trans (hsame Job.resultBytes rfl).symm
      · have hcount := hsame (fun job => if job.isCompleted then 1 else 0) (by rw [hpending]; rfl)
        simp only [withinRetention, count_eq_total] at hwithin ⊢
        rwa [hcount]
    | running | ready vectors boundaries | failed code message =>
      simp only [hstate]
      exact ⟨h, Evolves.refl jobs, hwithin⟩

theorem settles_insertJob (h : Counted jobs) (hwithin : t.withinRetention jobs = true)
    {key : String}
    (hfree : jobs.byKey key = none) (items : List BatchItem) (dimensions result charge : Nat) :
    Settles t jobs (t.insertJob key items dimensions result charge jobs) := by
  have hnone : jobs.job jobs.nextSeq = none := by
    by_contra hsome
    obtain ⟨job, hjob⟩ := Option.ne_none_iff_exists'.mp hsome
    exact Nat.lt_irrefl _ (h.below _ job hjob)
  have hsum := fun f => @total_put_of_none _ _ _ jobs.bySeq
    (t.newJob key items dimensions result charge jobs.nextSeq) _ hnone f
  have hat : ∀ k, (t.insertJob key items dimensions result charge jobs).job k =
      if jobs.nextSeq = k then some (t.newJob key items dimensions result charge jobs.nextSeq)
      else jobs.job k := get_put
  refine ⟨⟨fun other k => ?_, fun k other hk => ?_, fun k other hk => ?_, ?_, ?_, h.subtractions⟩,
    ⟨Nat.le_succ _, fun k other hk hlt => ?_⟩, ?_⟩
  · rw [hat]
    change Function.update jobs.byKey key (some jobs.nextSeq) other = some k ↔ _
    by_cases hkey : other = key
    · subst hkey
      rw [Function.update_self]
      split
      · rename_i hk
        subst hk
        simp [newJob]
      · rename_i hk
        refine ⟨fun heq => absurd (Option.some.inj heq) hk, fun ⟨job, hjob, hsame⟩ => ?_⟩
        rw [(h.keyed other k).mpr ⟨job, hjob, hsame⟩] at hfree
        cases hfree
    · rw [Function.update_of_ne hkey, h.keyed]
      split
      · rename_i hk
        subst hk
        rw [hnone]
        refine ⟨nofun, ?_⟩
        rintro ⟨job, ⟨⟩, hsame⟩
        exact absurd hsame.symm hkey
      · rfl
  · rw [hat] at hk
    split at hk
    · rename_i heq
      exact heq ▸ Nat.lt_succ_self _
    · exact (h.below k other hk).trans (Nat.lt_succ_self _)
  · rw [hat] at hk
    split at hk
    · cases hk
      refine ⟨nofun, fun _ => rfl, ?_⟩
      rintro _ ⟨⟩
      rfl
    · exact h.fits k other hk
  · exact (congrArg (· + textBytes items) h.queued).trans (hsum Job.textBytes).symm
  · exact h.retained.trans (hsum Job.resultBytes).symm
  · rw [hat, if_neg hlt.ne'] at hk
    exact ⟨other, hk, fun _ => rfl, id⟩
  · have hcount := hsum fun job => if job.isCompleted then 1 else 0
    simp only [withinRetention, count_eq_total] at hwithin ⊢
    exact hcount ▸ hwithin

theorem Settles.trans {jobs'' : Jobs} (h : Settles t jobs jobs')
    (h' : Counted jobs' → t.withinRetention jobs' = true → Settles t jobs' jobs'') :
    Settles t jobs jobs'' :=
  have hlater := h' h.counted h.within
  ⟨hlater.counted, h.evolves.trans hlater.evolves, hlater.within⟩

theorem Settles.refl (h : Counted jobs) (hwithin : t.withinRetention jobs = true) :
    Settles t jobs jobs := ⟨h, Evolves.refl jobs, hwithin⟩

theorem settles_admitNew (h : Counted jobs) (hwithin : t.withinRetention jobs = true) {key : String}
    {failedReplay : Option Nat} (hkey : jobs.byKey key = failedReplay) (items : List BatchItem)
    (dimensions charge capacity : Nat) :
    Settles t jobs (t.admitNew key items dimensions charge capacity failedReplay jobs).2 := by
  unfold admitNew
  split
  · exact Settles.refl h hwithin
  · split
    · exact Settles.refl h hwithin
    · split
      · exact Settles.refl h hwithin
      · refine (settles_removeAll h hwithin failedReplay.toList).trans fun hcounted hin =>
          settles_insertJob hcounted hin ?_ _ _ _ _
        cases failedReplay with
        | none => exact hkey
        | some seq =>
          obtain ⟨job, hjob, rfl⟩ := (h.keyed key seq).mp hkey
          change (jobs.remove seq).byKey job.key = none
          rw [remove, hjob]
          exact Function.update_self _ _ _

theorem settles_admitCharged (h : Counted jobs) (hwithin : t.withinRetention jobs = true)
    (key : String) (items : List BatchItem) (dimensions charge capacity now : Nat) :
    Settles t jobs (t.admitCharged key items dimensions charge capacity now jobs).2 := by
  unfold admitCharged
  split
  · exact Settles.refl h hwithin
  · refine (settles_sweepExpired h hwithin now).trans fun hswept hin => ?_
    generalize t.sweepExpired now jobs = swept at hswept hin
    simp only
    cases hkey : swept.byKey key with
    | none => exact settles_admitNew hswept hin hkey _ _ _ _
    | some seq =>
      simp only
      cases hjob : swept.job seq with
      | none => exact Settles.refl hswept hin
      | some job =>
        simp only
        split
        · exact Settles.refl hswept hin
        · split
          · split
            · exact Settles.refl hswept hin
            · exact settles_admitNew hswept hin hkey _ _ _ _
          · exact Settles.refl hswept hin

/-- A poll only removes what has expired. -/
theorem poll_jobs (jobId key : String) (cursor : Option String) (now : Nat) :
    (t.poll jobId key cursor now jobs).2 = t.sweepExpired now jobs := by
  unfold poll
  simp only
  split
  · rfl
  · split
    · rfl
    · split
      · rfl
      · rfl
      · rfl
      · split
        · rfl
        · split <;> rfl

theorem settles_closeAdmission (h : Counted jobs) (hwithin : t.withinRetention jobs = true) :
    Settles t jobs jobs.closeAdmission := by
  have hclosed : Settles t jobs { jobs with closed := true } :=
    ⟨⟨h.keyed, h.below, h.fits, h.queued, h.retained, h.subtractions⟩,
      ⟨le_refl _, (Evolves.refl jobs).old⟩, hwithin⟩
  exact hclosed.trans fun hcounted hin => settles_removeAll hcounted hin _

theorem settles_clear (h : Counted jobs) : Settles t jobs jobs.clear where
  counted := ⟨fun _ _ => ⟨nofun, nofun⟩, nofun, nofun, rfl, rfl, h.subtractions⟩
  evolves := ⟨le_refl _, nofun⟩
  within := rfl

theorem settles_step {s : State} (h : Counted s.jobs) (hwithin : t.withinRetention s.jobs = true)
    {call : Call} (hfirst : ¬ call.Republishes s.jobs) :
    Settles t s.jobs (t.step s call).jobs := by
  cases call with
  | admitted key items dimensions charge capacity now =>
    exact settles_admitCharged h hwithin key items dimensions charge capacity now
  | start seq => exact settles_start h hwithin seq
  | publishReady seq vectors now ties => exact settles_publishReady h hwithin seq vectors now ties hfirst
  | publishFailed seq code message now ties =>
    exact settles_failJob h hwithin seq code message now ties
  | poll jobId key cursor now =>
    rw [step, poll_jobs]
    exact settles_sweepExpired h hwithin now
  | keyIsRetained key now => exact settles_sweepExpired h hwithin now
  | sweep now => exact settles_sweepExpired h hwithin now
  | closeAdmission => exact settles_closeAdmission h hwithin
  | clear => exact settles_clear h

/-! ## Runs -/

structure State.Good (t : JobTable) (s : State) : Prop where
  counted : Counted s.jobs
  within : t.withinRetention s.jobs = true
  started : ∀ seq ∈ s.started, seq < s.jobs.nextSeq ∧
    ∀ job, s.jobs.job seq = some job → job.isQueued = false
  once : s.started.Nodup

/-- A job that is started was queued, and is no more. -/
theorem start_isSome {jobs : Jobs} {seq : Nat} (h : (start seq jobs).1.isSome = true) :
    ∃ job, jobs.job seq = some job ∧ job.isQueued = true ∧
      ∀ job', (start seq jobs).2.job seq = some job' → job'.isQueued = false := by
  unfold start at h ⊢
  cases hjob : jobs.job seq with
  | none =>
    rw [hjob] at h
    cases h
  | some job =>
    rw [hjob] at h
    cases hstate : job.state with
    | queued items =>
      refine ⟨job, rfl, by rw [Job.isQueued, hstate], fun job' hjob' => ?_⟩
      simp only [hstate] at hjob'
      obtain ⟨-, rfl⟩ := job_eq_some.mp hjob
      rw [job_setJob, if_pos rfl] at hjob'
      cases hjob'
      rfl
    | running => simp [hstate] at h
    | ready vectors boundaries => simp [hstate] at h
    | failed code message => simp [hstate] at h

theorem good_step {s : State} (h : s.Good t) {call : Call} (hfirst : ¬ call.Republishes s.jobs) :
    (t.step s call).Good t := by
  have hsettles := settles_step h.counted h.within hfirst
  have hstarted : ∀ seq ∈ s.started, seq < (t.step s call).jobs.nextSeq ∧
      ∀ job, (t.step s call).jobs.job seq = some job → job.isQueued = false := by
    intro seq hseq
    obtain ⟨hlt, hqueued⟩ := h.started seq hseq
    refine ⟨hlt.trans_le hsettles.evolves.next, fun job' hjob' => ?_⟩
    obtain ⟨job, hjob, -, hstays⟩ := hsettles.evolves.old seq job' hjob' hlt
    by_contra hq
    rw [Bool.not_eq_false] at hq
    exact absurd (hstays hq) (by rw [hqueued job hjob]; nofun)
  by_cases hnew : (t.step s call).started = s.started
  · exact ⟨hsettles.counted, hsettles.within, hnew ▸ hstarted, hnew ▸ h.once⟩
  · cases call with
    | start seq =>
      have hsome : (start seq s.jobs).1.isSome = true := by
        by_contra hnone
        exact hnew (if_neg hnone)
      have hlog : (t.step s (.start seq)).started = s.started ++ [seq] := if_pos hsome
      obtain ⟨job, hjob, hqueued, hafter⟩ := start_isSome hsome
      refine ⟨hsettles.counted, hsettles.within, fun k hk => ?_, ?_⟩
      · rw [hlog, List.mem_append, List.mem_singleton] at hk
        rcases hk with hk | rfl
        · exact hstarted k hk
        · exact ⟨(h.counted.below k job hjob).trans_le hsettles.evolves.next, hafter⟩
      · rw [hlog]
        refine h.once.append (List.nodup_singleton seq) fun k hk hk' => ?_
        obtain rfl := List.mem_singleton.mp hk'
        rw [(h.started k hk).2 job hjob] at hqueued
        cases hqueued
    | _ => exact absurd rfl hnew

theorem good_empty : ({} : State).Good t where
  counted := ⟨fun _ _ => ⟨nofun, nofun⟩, nofun, nofun, rfl, rfl, rfl⟩
  within := rfl
  started := nofun
  once := List.nodup_nil

theorem run_append (calls : List Call) (call : Call) :
    t.run (calls ++ [call]) = t.step (t.run calls) call :=
  List.foldl_append

/-- What a run keeps, and how its tables follow each other. -/
theorem good_run {calls : List Call}
    (h : ∀ before call, before ++ [call] <+: calls → ¬ call.Republishes (t.run before).jobs) :
    (t.run calls).Good t ∧
      ∀ earlier, earlier <+: calls → Evolves (t.run earlier).jobs (t.run calls).jobs := by
  induction calls using List.reverseRecOn with
  | nil =>
    refine ⟨good_empty, fun earlier hearlier => ?_⟩
    obtain rfl := List.prefix_nil.mp hearlier
    exact Evolves.refl _
  | append_singleton calls call ih =>
    obtain ⟨hgood, hevolves⟩ := ih fun before other hbefore =>
      h before other (hbefore.trans (List.prefix_append ..))
    have hfirst := h calls call (List.prefix_refl _)
    rw [run_append]
    refine ⟨good_step hgood hfirst, fun earlier hearlier => ?_⟩
    rcases List.prefix_concat_iff.mp hearlier with rfl | hinitial
    · rw [run_append]
      exact Evolves.refl _
    · exact (hevolves earlier hinitial).trans (settles_step hgood.counted hgood.within hfirst).evolves

/-- In a run that publishes vectors for no completed job, the indexes, the counters and the limits
are right after every call, no job is started twice, and a completed job stays as it is until it is
removed. -/
theorem job_accounting (t : JobTable) (calls : List Call)
    (h : ∀ before call, before ++ [call] <+: calls → ¬ call.Republishes (t.run before).jobs) :
    JobAccounting t calls := by
  have hgood : ∀ later, later <+: calls → (t.run later).Good t ∧
      ∀ earlier, earlier <+: later → Evolves (t.run earlier).jobs (t.run later).jobs :=
    fun later hlater => good_run fun before call hbefore => h before call (hbefore.trans hlater)
  refine ⟨fun before hbefore => ?_, (hgood calls (List.prefix_refl _)).1.once, ?_⟩
  · obtain ⟨hcounted, hwithin, -, -⟩ := (hgood before hbefore).1
    rw [JobTable.withinRetention, Bool.and_eq_true, decide_eq_true_eq, decide_eq_true_eq] at hwithin
    exact hcounted.accounted hwithin.1 hwithin.2
  · intro earlier later hearlier hlater seq job job' hjob hcompleted hjob'
    obtain ⟨hearly, -⟩ := hgood earlier (hearlier.trans hlater)
    obtain ⟨-, hevolves⟩ := hgood later hlater
    obtain ⟨old, hold, hsame, -⟩ := (hevolves earlier hearlier).old seq job' hjob'
      (hearly.counted.below seq job hjob)
    cases hjob.symm.trans hold
    exact hsame hcompleted

namespace Sample

def table : JobTable where
  limits := ⟨4, 1000, 4, 1000, 8, 4096, 60⟩
  incarnation := "0"
  sha256 := id

/-- One item, and then its vector, twice. -/
def once : List Call :=
  [.admitted "k" [⟨"", "", ""⟩] 1 0 0 0, .start 1, .publishReady 1 [[0]] 0 id]

def twice : List Call := once ++ [.publishReady 1 [[0]] 0 id]

/-- After the second publication the counter stands at eight bytes, and the job has four. -/
theorem published_twice : ¬ JobAccounting table twice := by
  intro h
  have haccounted := (h.accounted twice (List.prefix_refl _)).retained
  revert haccounted
  decide +kernel

/-- Two jobs complete where one is retained, and the first is published again when it is gone. -/
def evicting : List Call :=
  [.admitted "k" [⟨"a", "x", "one"⟩] 1 9 9 0, .start 1,
    .admitted "l" [⟨"b", "y", "two"⟩, ⟨"c", "z", "é"⟩] 1 9 9 0, .start 2, .publishReady 1 [[0]] 1 id,
    .publishReady 2 [[1], [2]] 2 id, .publishReady 1 [[0]] 3 id, .poll "0-2" "l" none 4]

theorem job_accounting_evicting :
    JobAccounting { table with limits := { table.limits with maxRetainedJobs := 1 } } evicting := by
  refine job_accounting _ evicting fun before call ⟨after, hafter⟩ => ?_
  have hfirst : ∀ n : Fin evicting.length, ¬ (evicting.get n).Republishes
      (JobTable.run { table with limits := { table.limits with maxRetainedJobs := 1 } }
        (evicting.take n)).jobs := by
    decide +kernel
  have hn : before.length < evicting.length := by
    rw [← hafter]
    simp
  simpa [← hafter] using hfirst ⟨before.length, hn⟩

end Sample

end MagicContext.Synapse
