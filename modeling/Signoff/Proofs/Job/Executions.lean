import Signoff.Proofs.Frames

/-! # What calls on the scheduler execute

    A call on the scheduler executes the functions of jobs, and each execution leaves
    the site with a row that tells of it:

    * `Execution`: the function of a job is executed on a site. `Execution.leaves` is
      the site behind it, `exec_runJob` says so.
    * `Turn`, `Pass`, `Deed`, `History`: what is executed when a job has its turn, when
      all jobs have theirs in the order of registration, when a call is answered, and
      when calls follow one another.
    * `exists_deed`: every call is answered, and has its deed.
-/

open Signoff.Task (Keeps Same)
open Signoff.Session (Settles)

namespace Signoff

/-! ## What a row counts -/

/-- What the row of a job counts: the runs, and those of them that failed. -/
structure Tally where
  key : Int
  name : String
  runs : Int
  failures : Int

/-- What the row counts. -/
def Job.tally (j : Job) : Tally := ⟨j.id, j.name, j.runCount, j.failureCount⟩

namespace Site

/-- What the rows of the jobs count. -/
def tallies (s : Site) : List Tally := s.office.jobs.rows.map Job.tally

/-- No two rows of jobs have the same key, or the same name. -/
structure JobsApart (s : Site) : Prop where
  keys : (s.tallies.map Tally.key).Nodup
  names : (s.tallies.map Tally.name).Nodup

theorem names_tallies (s : Site) : s.tallies.map Tally.name = s.office.jobs.rows.map Job.name := by
  unfold tallies
  rw [List.map_map]
  rfl

theorem keys_tallies (s : Site) : s.tallies.map Tally.key = s.office.jobs.rows.map Row.key := by
  unfold tallies
  rw [List.map_map]
  rfl

theorem JobsApart.keysDistinct {s : Site} (h : s.JobsApart) : s.office.jobs.KeysDistinct := by
  unfold Table.KeysDistinct
  rw [← s.keys_tallies]
  exact h.keys

end Site

namespace RegisteredJob

/-- The function of the job leaves the tallies of all jobs alone. It may write anything else, may store
    it or not, and may fail. -/
def LeavesTallies (job : RegisteredJob) : Prop :=
  ∀ s, (job.work.after (.opened s)).stored.tallies = s.tallies ∧
    (job.work.after (.opened s)).seen.tallies = s.tallies

/-- The function of the job leaves the row of a name alone. -/
def LeavesRow (job : RegisteredJob) (name : String) : Prop :=
  ∀ s, Scheduler.row? (job.work.after (.opened s)).stored.office name = Scheduler.row? s.office name ∧
    Scheduler.row? (job.work.after (.opened s)).seen.office name = Scheduler.row? s.office name

end RegisteredJob

/-- Alerts leave the rows of jobs alone, -/
instance : Site.Noticing (Same fun s : Site => s.office.jobs) where
  lookedUp s boardId := by
    show (s.lookedUp boardId).office.jobs = s.office.jobs
    rw [Site.lookedUp_office]
  noticed _ _ := rfl

/-- and so do automations. -/
instance : Office.Reacting (Same Office.jobs) where
  changed _ _ _ _ := rfl
  added _ _ _ := rfl
  wrote itemId := Office.keeps_writeCell_of_withCell fun o columnId value => by
    show (o.withCell itemId columnId value).jobs = o.jobs
    rw [Office.withCell_eq]
  cleared itemId := Office.keeps_deleteCells_of_erase fun _ _ _ => rfl
  noticed _ _ _ := rfl
  logged _ _ := rfl
  called _ _ _ := rfl
  noted _ _ := rfl

namespace Registry

/-- Registering a job never gives two jobs one name. -/
theorem nodup_register {registry : Registry} (h : (List.map RegisteredJob.name registry).Nodup)
    (job : RegisteredJob) : (List.map RegisteredJob.name (registry.register job)).Nodup := by
  unfold register
  by_cases hthere : (registry.find? job.name).isSome
  · -- The job replaces one of its name.
    have hnames : List.map RegisteredJob.name
        (List.map (fun j : RegisteredJob => if j.name == job.name then job else j) registry) =
          List.map RegisteredJob.name registry := by
      rw [List.map_map]
      refine List.map_congr_left fun j _ => ?_
      rw [Function.comp_apply]
      split
      · next hname => exact (beq_iff_eq.mp hname).symm
      · rfl
    rw [if_pos hthere, hnames]
    exact h
  · rw [if_neg hthere, List.map_append]
    refine h.append (List.nodup_singleton _) fun name hold hname => ?_
    rw [List.map_singleton, List.mem_singleton] at hname
    obtain ⟨j, hj, hjname⟩ := List.mem_map.mp hold
    refine hthere (List.find?_isSome.mpr ⟨j, hj, ?_⟩)
    simp [hjname, hname]

/-- The standard jobs leave the rows of jobs alone. -/
theorem leavesTallies_standard : ∀ job ∈ standard, job.LeavesTallies := by
  intro job hjob s
  have hdates : Keeps (Same fun s : Site => s.office.jobs) (Site.within (Automations.dailyPass none)) :=
    fun s => Office.permits_dailyPass (R := Same Office.jobs) none s.office
  obtain ⟨s', hs', hsame⟩ := Site.keeps_standard hdates job hjob s
  have htallies : s'.tallies = s.tallies := by
    unfold Site.tallies
    rw [show s'.office.jobs = s.office.jobs from hsame]
  rw [hs']
  exact ⟨htallies, htallies⟩

end Registry

/-! ## Executions -/

namespace Scheduler

/-- The function of a job is executed on a site. -/
structure Execution where
  job : RegisteredJob
  start : Site

namespace Execution

variable (x : Execution)

/-- The session behind the function. -/
def behind : Session := x.job.work.after (.opened x.start)

/-- How the scheduler sees the function end. -/
def outcome : Outcome :=
  match x.job.work.answer (.opened x.start) with
  | .ok result => .succeeded result
  | .error fault => .failed fault.text

/-- Did the function fail? -/
def isFailure : Bool :=
  match x.job.work.answer (.opened x.start) with
  | .ok _ => false
  | .error _ => true

/-- Did the job have a row when the function was executed? -/
def isBooked : Bool := (row? x.start.office x.job.name).isSome

/-- The site with what counts of the writes: all of them if the function returned, those that it stored
    itself if it failed. -/
def kept : Site := if x.isFailure then x.behind.left else x.behind.seen

/-- The site behind the execution. What counts of the writes is stored together with the row of the job.
    For a job that has no row, nothing is stored but what the function stored itself. -/
def leaves : Site :=
  match row? x.kept.office x.job.name with
  | some row => { x.kept with office := recording x.kept.office row x.outcome }
  | none => x.behind.left

end Execution

/-- The function is executed, and what a function that fails has not stored is taken back. -/
theorem exec_perform (x : Execution) :
    (perform x.job).exec (.opened x.start) =
      (.ok x.outcome, if x.isFailure then .opened x.behind.left else x.behind) := by
  unfold perform Execution.outcome Execution.isFailure Execution.behind Task.answer Task.after
  rw [Task.exec_bind, Task.exec_attempt]
  cases (x.job.work.exec (.opened x.start)).1 with
  | ok result => rfl
  | error fault => rfl

/-- How a run went is written into the row of the job, and everything is stored; without a row nothing
    is. -/
theorem exec_record (name : String) (outcome : Outcome) (w : Session) :
    (record name outcome).exec w = (.ok (), match row? w.seen.office name with
      | some row => .opened { w.seen with office := recording w.seen.office row outcome }
      | none => w) := by
  unfold record
  rw [Task.exec_get_bind]
  cases row? w.seen.office name with
  | some row => rfl
  | none => rfl

/-- The job is executed if it has a row that is enabled, or none. -/
theorem exec_runJob {job : RegisteredJob} {s : Site}
    (henabled : ∀ row, row? s.office job.name = some row → row.isEnabled) :
    (Session.within (runJob job)).exec s =
      (.ok (Execution.outcome ⟨job, s⟩), Execution.leaves ⟨job, s⟩) := by
  have hany : ((row? s.office job.name).any fun j => !j.isEnabled) = false := by
    cases hrow : row? s.office job.name with
    | none => rfl
    | some row => simp [henabled row hrow]
  have hperform := exec_perform ⟨job, s⟩
  rw [Session.exec_within]
  unfold runJob
  rw [Task.exec_get_bind, Session.seen_opened, hany]
  simp only [Bool.false_eq_true, ↓reduceIte]
  rw [Task.exec_bind_ok hperform, Task.exec_bind_ok (exec_record ..), Task.exec_pure]
  refine Prod.ext rfl ?_
  unfold Execution.leaves Execution.kept
  by_cases hfails : Execution.isFailure ⟨job, s⟩
  · simp only [hfails, ↓reduceIte, Session.seen_opened]
    split
    · rw [Session.left_opened]
    · rw [Session.left_opened]
  · simp only [hfails, Bool.false_eq_true, ↓reduceIte]
    split
    · rw [Session.left_opened]
    · rfl

/-- A disabled job is left alone. -/
theorem exec_runJob_disabled {job : RegisteredJob} {s : Site} {row : Job}
    (hrow : row? s.office job.name = some row) (hdisabled : row.isEnabled = false) :
    (Session.within (runJob job)).exec s = (.ok .skipped, s) := by
  have hany : ((row? s.office job.name).any fun j => !j.isEnabled) = true := by
    rw [hrow, Option.any_some, hdisabled]
    rfl
  rw [Session.exec_within]
  unfold runJob
  rw [Task.exec_get_bind, Session.seen_opened, hany]
  rfl

/-! ## Calls -/

/-- A call on the scheduler. Without an application nothing can be registered or run. -/
inductive Call where
  | ensureRows (ready : Bool)
  | run (ready : Bool) (name : String)
  | runAll (ready : Bool)
  | setEnabled (name : String) (isEnabled : Bool)
deriving DecidableEq

/-- Answers a call. -/
def Call.perform (registry : Registry) : Call → SiteTask Unit
  | ensureRows ready => if ready then discard (Scheduler.ensureRows registry) else pure ()
  | run ready name => discard (Scheduler.run registry ready name)
  | runAll ready => discard (Scheduler.runAll registry ready)
  | setEnabled name isEnabled => discard (Scheduler.setEnabled name isEnabled)

/-- A job has its turn. -/
inductive Turn (ready : Bool) (job : RegisteredJob) (s : Site) : List Execution → Site → Prop where
  | refused (h : ready = false) : Turn ready job s [] s
  | skipped {row : Job} (hrow : row? s.office job.name = some row) (h : row.isEnabled = false) :
    Turn ready job s [] s
  /-- Its function is executed, unless the row of the job is disabled. -/
  | executed (hready : ready = true) (h : ∀ row, row? s.office job.name = some row → row.isEnabled) :
    Turn ready job s [⟨job, s⟩] (Execution.leaves ⟨job, s⟩)

/-- Jobs have their turns one after another, each on the site that the one in front of it left, however
    that one ended. -/
inductive Pass (ready : Bool) : List RegisteredJob → Site → List Execution → Site → Prop where
  | nil {s : Site} : Pass ready [] s [] s
  | cons {job : RegisteredJob} {rest : List RegisteredJob} {s s' s'' : Site} {xs ys : List Execution}
    (turn : Turn ready job s xs s') (later : Pass ready rest s' ys s'') :
    Pass ready (job :: rest) s (xs ++ ys) s''

/-- Adds the row of a job: enabled, and without a run. -/
def addRow (jobs : Table Job) (job : RegisteredJob) : Table Job :=
  jobs.add fun id => { id, name := job.name, description := job.description }

/-- The jobs that have no row. -/
def missing (registry : Registry) (s : Site) : List RegisteredJob :=
  List.filter (fun job : RegisteredJob => (row? s.office job.name).isNone) registry

/-- What a call executes, and the site behind it. -/
inductive Deed (registry : Registry) (s : Site) : Call → List Execution → Site → Prop where
  /-- Every job that has no row gets one. -/
  | registered : Deed registry s (.ensureRows true) []
    { s with office.jobs := (missing registry s).foldl addRow s.office.jobs }
  | unready : Deed registry s (.ensureRows false) [] s
  | unknown {ready : Bool} {name : String} (h : registry.find? name = none) :
    Deed registry s (.run ready name) [] s
  | ran {ready : Bool} {job : RegisteredJob} {xs : List Execution} {s' : Site} (h : job ∈ registry)
    (turn : Turn ready job s xs s') : Deed registry s (.run ready job.name) xs s'
  /-- All jobs have their turns in the order of registration. -/
  | ranAll {ready : Bool} {xs : List Execution} {s' : Site} (pass : Pass ready registry s xs s') :
    Deed registry s (.runAll ready) xs s'
  /-- The row of the name, if there is one, is enabled or disabled. -/
  | switched {name : String} {isEnabled : Bool} : Deed registry s (.setEnabled name isEnabled) []
    { s with office.jobs.rows := s.office.jobs.rows.map fun row =>
      if row.name = name then { row with isEnabled } else row }

/-- What calls execute one after another, and the site behind them. -/
inductive History (registry : Registry) : Site → List Call → List Execution → Site → Prop where
  | nil {s : Site} : History registry s [] [] s
  | cons {s s' s'' : Site} {call : Call} {rest : List Call} {xs ys : List Execution}
    (deed : Deed registry s call xs s') (later : History registry s' rest ys s'') :
    History registry s (call :: rest) (xs ++ ys) s''

/-! ## Every call has its deed -/

theorem mem_names_iff {o : Office} {name : String} :
    name ∈ o.jobs.rows.map Job.name ↔ (row? o name).isSome := by
  unfold row?
  rw [List.find?_isSome]
  simp

theorem name_of_row? {o : Office} {name : String} {row : Job} (h : row? o name = some row) :
    row ∈ o.jobs.rows ∧ row.name = name :=
  ⟨List.mem_of_find?_eq_some h, by simpa using List.find?_some h⟩

/-- A registered job has its turn when it is run by its name. -/
theorem exists_turn {registry : Registry} (ready : Bool) {job : RegisteredJob}
    (hfind : registry.find? job.name = some job) (s : Site) :
    ∃ outcome xs s', (run registry ready job.name).exec s = (.ok outcome, s') ∧
      Turn ready job s xs s' := by
  unfold run
  rw [hfind]
  simp only
  cases hready : ready with
  | false => exact ⟨_, [], s, rfl, .refused rfl⟩
  | true =>
    simp only [Bool.not_true, Bool.false_eq_true, ↓reduceIte]
    by_cases henabled : ∀ row, row? s.office job.name = some row → row.isEnabled
    · exact ⟨_, _, _, exec_runJob henabled, .executed rfl henabled⟩
    · push Not at henabled
      obtain ⟨row, hrow, hdisabled⟩ := henabled
      have hdisabled : row.isEnabled = false := by simpa using hdisabled
      exact ⟨_, _, _, exec_runJob_disabled hrow hdisabled, .skipped hrow hdisabled⟩

/-- The jobs have their turns, and none of them keeps the others from it. -/
theorem exists_pass {registry : Registry} (ready : Bool) {jobs : List RegisteredJob}
    (hfind : ∀ job ∈ jobs, registry.find? job.name = some job) (s : Site) :
    ∃ outcomes xs s', (jobs.mapM fun job : RegisteredJob => do
        pure ((← run registry ready job.name).toValue job.name)).exec s = (.ok outcomes, s') ∧
      Pass ready jobs s xs s' := by
  induction jobs generalizing s with
  | nil => exact ⟨[], [], s, rfl, .nil⟩
  | cons job rest ih =>
    obtain ⟨outcome, xs, s', hrun, hturn⟩ := exists_turn ready (hfind job (List.mem_cons_self ..)) s
    obtain ⟨outcomes, ys, s'', hrest, hpass⟩ := ih (fun other h => hfind other (List.mem_cons_of_mem _ h)) s'
    refine ⟨outcome.toValue job.name :: outcomes, xs ++ ys, s'', ?_, .cons hturn hpass⟩
    have hfirst : (do pure ((← run registry ready job.name).toValue job.name) : SiteTask Value).exec s =
        (.ok (outcome.toValue job.name), s') := by
      rw [Task.exec_bind_ok hrun, Task.exec_pure]
    rw [List.mapM_cons, Task.exec_bind_ok hfirst, Task.exec_bind_ok hrest, Task.exec_pure]

theorem exec_addRows (jobs : List RegisteredJob) (s : Site) :
    (jobs.forM fun job => Site.within (modify fun o =>
      { o with jobs := o.jobs.add fun id =>
        { id, name := job.name, description := job.description } })).exec s =
      (.ok ⟨⟩, { s with office.jobs := jobs.foldl addRow s.office.jobs }) := by
  induction jobs generalizing s with
  | nil => rfl
  | cons job rest ih =>
    rw [Task.exec_forM_cons, Task.exec_bind, Task.exec_within, Task.exec_modify]
    exact ih _

/-- With names apart, a row is found by its name. -/
theorem row?_of_mem {s : Site} (h : s.JobsApart) {row : Job} (hrow : row ∈ s.office.jobs.rows) :
    row? s.office row.name = some row := by
  obtain ⟨found, hfound⟩ := Option.isSome_iff_exists.mp (mem_names_iff.mp (List.mem_map_of_mem hrow))
  obtain ⟨hmem, hname⟩ := name_of_row? hfound
  have hnames : (s.office.jobs.rows.map Job.name).Nodup := s.names_tallies ▸ h.names
  rw [hfound, List.inj_on_of_nodup_map hnames hmem hrow hname]

/-- With keys and names apart, a change under the key of a row is one under its name. -/
theorem modify_row {s : Site} (h : s.JobsApart) {row : Job} (hrow : row ∈ s.office.jobs.rows)
    {f g : Job → Job} (hfg : f row = g row) :
    s.office.jobs.modify row.id f =
      ⟨s.office.jobs.rows.map fun other => if other.name = row.name then g other else other⟩ := by
  unfold Table.modify
  refine congrArg Table.mk (List.map_congr_left fun other hother => ?_)
  by_cases hname : other.name = row.name
  · have hsame : other = row := by
      have hfound := row?_of_mem h hother
      rw [hname, row?_of_mem h hrow] at hfound
      exact (Option.some.inj hfound).symm
    have hkey : (Row.key row == row.id) = true := beq_self_eq_true _
    rw [if_pos hname, hsame, if_pos hkey, hfg]
  · have hkey : ¬ (Row.key other == row.id) = true := by
      intro hkey
      exact hname (congrArg Job.name (h.keysDistinct.eq_of_key_eq hother hrow (beq_iff_eq.mp hkey)))
    rw [if_neg hname, if_neg hkey]

/-- Every call is answered, and has its deed. -/
theorem exists_deed {registry : Registry} (hregistry : (List.map RegisteredJob.name registry).Nodup)
    {s : Site} (h : s.JobsApart) (call : Call) :
    ∃ xs s', (call.perform registry).exec s = (.ok (), s') ∧ Deed registry s call xs s' := by
  have hfind (job : RegisteredJob) (hjob : job ∈ registry) : registry.find? job.name = some job := by
    have hthere : (registry.find? job.name).isSome :=
      List.find?_isSome.mpr ⟨job, hjob, beq_self_eq_true _⟩
    obtain ⟨found, hfound⟩ := Option.isSome_iff_exists.mp hthere
    have hname : found.name = job.name := by simpa using List.find?_some hfound
    rw [hfound, List.inj_on_of_nodup_map hregistry (List.mem_of_find?_eq_some hfound) hjob hname]
  cases call with
  | ensureRows ready =>
    cases ready with
    | false => exact ⟨[], s, rfl, .unready⟩
    | true =>
      refine ⟨[], _, ?_, .registered⟩
      have hmissing : List.filter (fun job : RegisteredJob =>
          !(s.office.jobs.rows.map (·.name)).contains job.name) registry = missing registry s := by
        apply List.filter_congr
        intro job _
        have hiff : job.name ∈ s.office.jobs.rows.map Job.name ↔ (row? s.office job.name).isSome :=
          mem_names_iff
        rw [Bool.eq_iff_iff]
        simp only [Bool.not_eq_true', List.contains_eq_mem, decide_eq_false_iff_not, hiff]
        simp
      show (discard (ensureRows registry)).exec s = _
      rw [Task.exec_discard]
      unfold ensureRows
      rw [Task.exec_get_bind]
      simp only
      rw [hmissing, Task.exec_bind_ok (exec_addRows ..), Task.exec_pure]
  | run ready name =>
    show ∃ xs s', (discard (run registry ready name)).exec s = (.ok (), s') ∧ _
    cases hjob : registry.find? name with
    | none =>
      refine ⟨[], s, ?_, .unknown hjob⟩
      unfold run
      rw [Task.exec_discard, hjob]
      rfl
    | some job =>
      have hname : job.name = name := by simpa using List.find?_some hjob
      subst hname
      obtain ⟨outcome, xs, s', hexec, hturn⟩ := exists_turn ready hjob s
      exact ⟨xs, s', by rw [Task.exec_discard, hexec], .ran (List.mem_of_find?_eq_some hjob) hturn⟩
  | runAll ready =>
    obtain ⟨outcomes, xs, s', hexec, hpass⟩ := exists_pass ready hfind s
    refine ⟨xs, s', ?_, .ranAll hpass⟩
    show (discard (runAll registry ready)).exec s = _
    rw [Task.exec_discard]
    unfold runAll
    rw [Task.exec_bind_ok hexec, Task.exec_pure]
  | setEnabled name isEnabled =>
    refine ⟨[], _, ?_, .switched⟩
    show (discard (setEnabled name isEnabled)).exec s = _
    rw [Task.exec_discard]
    unfold setEnabled
    rw [Task.exec_get_bind]
    cases hrow : row? s.office name with
    | none =>
      -- No row has the name, so none changes.
      have hnone : ∀ row ∈ s.office.jobs.rows, row.name ≠ name := by
        intro row hmem hname
        have hfound := row?_of_mem h hmem
        rw [hname, hrow] at hfound
        cases hfound
      have hsame : (s.office.jobs.rows.map fun row =>
          if row.name = name then { row with isEnabled } else row) = s.office.jobs.rows := by
        conv_rhs => rw [← List.map_id s.office.jobs.rows]
        exact List.map_congr_left fun row hmem => if_neg (hnone row hmem)
      rw [hsame]
      rfl
    | some row =>
      obtain ⟨hmem, rfl⟩ := name_of_row? hrow
      have hrows := modify_row h hmem (f := fun _ => { row with isEnabled })
        (g := fun other => { other with isEnabled }) rfl
      show ((Except.ok (), { s with office.jobs := s.office.jobs.modify row.id fun _ => _ }) : Result Unit × Site) = _
      rw [hrows]

end Scheduler
end Signoff
