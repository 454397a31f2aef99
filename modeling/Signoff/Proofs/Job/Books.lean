import Signoff.Proofs.Job.Executions

/-! # The books of the scheduler

    The row of a job counts how often the function of the job was executed, and how
    often it failed:

    * `count`: an execution moves the tally of its own job, and no other.
    * `Books`: every step of a history keeps the books.
    * `Untouched`: the row of a disabled job stays as it is.
    * `exists_history`, `books_kept`: every sequence of calls is answered, has a
      history, and keeps the books.
-/

open Signoff.Task (Keeps Same)

namespace Signoff
namespace Scheduler

/-! ## The books -/

/-- The tally behind an execution: that of the job itself counts it. -/
def count (x : Execution) (t : Tally) : Tally :=
  if t.name = x.job.name then
    { t with runs := t.runs + 1, failures := t.failures + if x.isFailure then 1 else 0 }
  else t

@[simp] theorem name_count (x : Execution) (t : Tally) : (count x t).name = t.name := by
  unfold count
  split
  · rfl
  · rfl

@[simp] theorem key_count (x : Execution) (t : Tally) : (count x t).key = t.key := by
  unfold count
  split
  · rfl
  · rfl

theorem runs_count (x : Execution) (t : Tally) :
    (count x t).runs = t.runs + if t.name = x.job.name then 1 else 0 := by
  unfold count
  split
  · rfl
  · simp

theorem failures_count (x : Execution) (t : Tally) :
    (count x t).failures = t.failures + if t.name = x.job.name ∧ x.isFailure then 1 else 0 := by
  unfold count
  by_cases hname : t.name = x.job.name
  · simp [hname]
  · simp [hname]

/-- The row of a run counts it. -/
theorem tally_recorded (x : Execution) (now : Moment) {row : Job} (hname : row.name = x.job.name) :
    (recorded now row x.outcome).tally = count x row.tally := by
  have hcount : count x row.tally = { row.tally with
      runs := row.runCount + 1, failures := row.failureCount + if x.isFailure then 1 else 0 } :=
    if_pos hname
  rw [hcount]
  unfold Execution.outcome Execution.isFailure
  cases x.job.work.answer (.opened x.start) with
  | ok result => simp [recorded, Job.tally]
  | error fault => simp [recorded, Job.tally]

theorem tallies_kept {x : Execution} (hjob : x.job.LeavesTallies) :
    x.kept.tallies = x.start.tallies := by
  unfold Execution.kept
  split
  · exact (hjob x.start).1
  · exact (hjob x.start).2

theorem apart_kept {x : Execution} (hjob : x.job.LeavesTallies) (h : x.start.JobsApart) :
    x.kept.JobsApart :=
  ⟨tallies_kept hjob ▸ h.keys, tallies_kept hjob ▸ h.names⟩

/-- What an execution leaves are the tallies, each behind the execution. -/
theorem tallies_leaves {x : Execution} (hjob : x.job.LeavesTallies) (h : x.start.JobsApart) :
    x.leaves.tallies = x.start.tallies.map (count x) := by
  have hleft : x.behind.left.tallies = x.start.tallies := (hjob x.start).1
  have hkept := tallies_kept hjob
  unfold Execution.leaves
  cases hrow : row? x.kept.office x.job.name with
  | none =>
    -- No tally is that of the job.
    have hnone : x.job.name ∉ x.start.tallies.map Tally.name := by
      rw [← hkept, Site.names_tallies, mem_names_iff, hrow]
      simp
    have hsame : x.start.tallies.map (count x) = x.start.tallies := by
      conv_rhs => rw [← List.map_id x.start.tallies]
      refine List.map_congr_left fun t ht => if_neg fun hname => hnone ?_
      exact List.mem_map.mpr ⟨t, ht, hname⟩
    rw [hsame]
    exact hleft
  | some row =>
    obtain ⟨hmem, hname⟩ := name_of_row? hrow
    have hrows := modify_row (apart_kept hjob h) hmem (f := fun row => recorded x.kept.office.clock row x.outcome)
      (g := fun row => recorded x.kept.office.clock row x.outcome) rfl
    rw [← hkept]
    show (x.kept.office.jobs.modify row.id _).rows.map Job.tally = _
    rw [hrows]
    unfold Site.tallies
    rw [List.map_map, List.map_map]
    refine List.map_congr_left fun other _ => ?_
    rw [Function.comp_apply, Function.comp_apply]
    by_cases hother : other.name = row.name
    · rw [if_pos hother, tally_recorded x _ (hother.trans hname)]
    · rw [if_neg hother]
      exact (if_neg fun hsame => hother (hsame.trans hname.symm)).symm

/-- How often a job with a row was executed. -/
def runs (xs : List Execution) (name : String) : Nat :=
  xs.countP fun x => x.job.name == name && x.isBooked

/-- How often it failed then. -/
def failures (xs : List Execution) (name : String) : Nat :=
  xs.countP fun x => x.job.name == name && x.isBooked && x.isFailure

theorem runs_append (xs : List Execution) (x : Execution) (name : String) :
    runs (xs ++ [x]) name = runs xs name + if name = x.job.name ∧ x.isBooked then 1 else 0 := by
  have hiff : (x.job.name == name && x.isBooked) = true ↔ name = x.job.name ∧ x.isBooked := by
    rw [Bool.and_eq_true, beq_iff_eq]
    exact and_congr_left' eq_comm
  unfold runs
  rw [List.countP_append, List.countP_singleton]
  simp only [hiff]

theorem failures_append (xs : List Execution) (x : Execution) (name : String) :
    failures (xs ++ [x]) name =
      failures xs name + if name = x.job.name ∧ x.isBooked ∧ x.isFailure then 1 else 0 := by
  have hiff : (x.job.name == name && x.isBooked && x.isFailure) = true ↔
      name = x.job.name ∧ x.isBooked ∧ x.isFailure := by
    rw [Bool.and_eq_true, Bool.and_eq_true, beq_iff_eq, and_assoc]
    exact and_congr_left' eq_comm
  unfold failures
  rw [List.countP_append, List.countP_singleton]
  simp only [hiff]

/-- What the row of a name counts; nothing if there is none. -/
def runsOf (s : Site) (name : String) : Int := ((row? s.office name).map Job.runCount).getD 0

/-- The failures that the row of a name counts. -/
def failuresOf (s : Site) (name : String) : Int := ((row? s.office name).map Job.failureCount).getD 0

/-- The books are right: rows stay, and each of them counts the executions since it exists. -/
structure Books (start : Site) (xs : List Execution) (s : Site) : Prop where
  apart : s.JobsApart
  stay : ∀ name ∈ start.tallies.map Tally.name, name ∈ s.tallies.map Tally.name
  booked : ∀ x ∈ xs, x.isBooked → x.job.name ∈ s.tallies.map Tally.name
  runs : ∀ t ∈ s.tallies, t.runs = runsOf start t.name + runs xs t.name
  failures : ∀ t ∈ s.tallies, t.failures = failuresOf start t.name + failures xs t.name

namespace Books

variable {registry : Registry} {start s s' : Site} {xs ys : List Execution}

theorem refl (h : s.JobsApart) : Books s [] s where
  apart := h
  stay _ := id
  booked := nofun
  runs t ht := by
    obtain ⟨row, hrow, rfl⟩ := List.mem_map.mp ht
    have hfound : row? s.office row.tally.name = some row := row?_of_mem h hrow
    unfold runsOf Scheduler.runs
    rw [hfound]
    simp [Job.tally]
  failures t ht := by
    obtain ⟨row, hrow, rfl⟩ := List.mem_map.mp ht
    have hfound : row? s.office row.tally.name = some row := row?_of_mem h hrow
    unfold failuresOf Scheduler.failures
    rw [hfound]
    simp [Job.tally]

/-- Only the tallies matter. -/
theorem congr (h : Books start xs s) (htallies : s'.tallies = s.tallies) : Books start xs s' where
  apart := ⟨htallies ▸ h.apart.keys, htallies ▸ h.apart.names⟩
  stay := htallies ▸ h.stay
  booked := htallies ▸ h.booked
  runs := htallies ▸ h.runs
  failures := htallies ▸ h.failures

/-- An execution is counted in the row of its job. -/
theorem executed {x : Execution} (hjob : x.job.LeavesTallies) (h : Books start xs x.start) :
    Books start (xs ++ [x]) x.leaves := by
  have htallies := tallies_leaves hjob h.apart
  have hnames : x.leaves.tallies.map Tally.name = x.start.tallies.map Tally.name := by
    rw [htallies, List.map_map]
    exact List.map_congr_left fun t _ => name_count x t
  have hkeys : x.leaves.tallies.map Tally.key = x.start.tallies.map Tally.key := by
    rw [htallies, List.map_map]
    exact List.map_congr_left fun t _ => key_count x t
  -- A row that has the name of the job was there when the job was executed.
  have hbooked : x.isBooked = true ↔ x.job.name ∈ x.start.tallies.map Tally.name := by
    rw [Site.names_tallies, mem_names_iff]
    rfl
  have hname_booked {t : Tally} (ht : t ∈ x.start.tallies) (hname : t.name = x.job.name) :
      x.isBooked = true := hbooked.mpr (List.mem_map.mpr ⟨t, ht, hname⟩)
  refine ⟨⟨hkeys ▸ h.apart.keys, hnames ▸ h.apart.names⟩, hnames ▸ h.stay, ?_, ?_, ?_⟩
  · intro y hy hyb
    rw [hnames]
    rcases List.mem_append.mp hy with hy | hy
    · exact h.booked y hy hyb
    · rw [List.mem_singleton.mp hy] at hyb ⊢
      exact hbooked.mp hyb
  · intro u hu
    rw [htallies] at hu
    obtain ⟨t, ht, rfl⟩ := List.mem_map.mp hu
    have hruns := h.runs t ht
    rw [name_count, runs_count, runs_append]
    by_cases hname : t.name = x.job.name
    · simp only [hname, hname_booked ht hname, and_self, ↓reduceIte] at hruns ⊢
      omega
    · simp only [hname, false_and, ↓reduceIte]
      omega
  · intro u hu
    rw [htallies] at hu
    obtain ⟨t, ht, rfl⟩ := List.mem_map.mp hu
    have hfailures := h.failures t ht
    rw [name_count, failures_count, failures_append]
    by_cases hname : t.name = x.job.name
    · simp only [hname, hname_booked ht hname, true_and] at hfailures ⊢
      split
      · omega
      · omega
    · simp only [hname, false_and, ↓reduceIte]
      omega

/-- A turn is counted. -/
theorem turn {ready : Bool} {job : RegisteredJob} (hjob : job.LeavesTallies) (h : Books start xs s)
    (turn : Turn ready job s ys s') : Books start (xs ++ ys) s' := by
  cases turn with
  | refused | skipped =>
    rw [List.append_nil]
    exact h
  | executed => exact h.executed (x := ⟨job, s⟩) hjob

/-- So are the turns of all jobs. -/
theorem pass {ready : Bool} {jobs : List RegisteredJob} (hjobs : ∀ job ∈ jobs, job.LeavesTallies)
    (h : Books start xs s) (pass : Pass ready jobs s ys s') : Books start (xs ++ ys) s' := by
  induction pass generalizing xs with
  | nil =>
    rw [List.append_nil]
    exact h
  | cons turn later ih =>
    rw [← List.append_assoc]
    obtain ⟨hjob, hrest⟩ := List.forall_mem_cons.mp hjobs
    exact ih hrest (h.turn hjob turn)

/-- A new row counts nothing, since its job had no row before. -/
theorem added (h : Books start xs s) {job : RegisteredJob}
    (hnew : job.name ∉ s.tallies.map Tally.name) :
    Books start xs { s with office.jobs := addRow s.office.jobs job } := by
  have htallies : ({ s with office.jobs := addRow s.office.jobs job } : Site).tallies =
      s.tallies ++ [⟨s.office.jobs.nextKey, job.name, 0, 0⟩] := by
    show (addRow s.office.jobs job).rows.map Job.tally = _
    unfold addRow
    rw [Table.rows_add, List.map_append]
    rfl
  have hnone (name : String) (hname : name = job.name) : row? start.office name = none := by
    rw [← Option.not_isSome_iff_eq_none, ← mem_names_iff, ← Site.names_tallies, hname]
    exact fun hthere => hnew (h.stay _ hthere)
  have hunbooked : ∀ x ∈ xs, ¬ (x.job.name == job.name && x.isBooked) = true := by
    intro x hx hcounts
    obtain ⟨hname, hbooked⟩ := Bool.and_eq_true_iff.mp hcounts
    exact hnew (beq_iff_eq.mp hname ▸ h.booked x hx hbooked)
  refine ⟨⟨?_, ?_⟩, ?_, ?_, ?_, ?_⟩
  · rw [Site.keys_tallies]
    exact h.apart.keysDistinct.add rfl
  · rw [htallies, List.map_append]
    refine h.apart.names.append (List.nodup_singleton _) ?_
    intro name hold hname
    rw [List.mem_singleton.mp hname] at hold
    exact hnew hold
  · intro name hname
    rw [htallies, List.map_append]
    exact List.mem_append_left _ (h.stay name hname)
  · intro x hx hbooked
    rw [htallies, List.map_append]
    exact List.mem_append_left _ (h.booked x hx hbooked)
  · intro t ht
    rw [htallies] at ht
    rcases List.mem_append.mp ht with ht | ht
    · exact h.runs t ht
    · have hzero : Scheduler.runs xs job.name = 0 := List.countP_eq_zero.mpr hunbooked
      rw [List.mem_singleton.mp ht]
      simp [runsOf, hnone, hzero]
  · intro t ht
    rw [htallies] at ht
    rcases List.mem_append.mp ht with ht | ht
    · exact h.failures t ht
    · have hzero : Scheduler.failures xs job.name = 0 := by
        refine List.countP_eq_zero.mpr fun x hx hcounts => hunbooked x hx ?_
        exact (Bool.and_eq_true_iff.mp hcounts).1
      rw [List.mem_singleton.mp ht]
      simp [failuresOf, hnone, hzero]

/-- Rows for jobs that have none, one after another. -/
theorem registered {jobs : List RegisteredJob} (hnames : (jobs.map RegisteredJob.name).Nodup)
    (hnew : ∀ job ∈ jobs, job.name ∉ s.tallies.map Tally.name) (h : Books start xs s) :
    Books start xs { s with office.jobs := jobs.foldl addRow s.office.jobs } := by
  induction jobs generalizing s with
  | nil => exact h
  | cons job rest ih =>
    obtain ⟨hname, hnames⟩ := List.nodup_cons.mp hnames
    obtain ⟨hfirst, hrest⟩ := List.forall_mem_cons.mp hnew
    have hadded := h.added hfirst
    refine ih (s := { s with office.jobs := addRow s.office.jobs job }) hnames ?_ hadded
    intro other hother hmem
    rw [Site.names_tallies] at hmem
    unfold addRow at hmem
    rw [Table.rows_add, List.map_append, List.mem_append] at hmem
    rcases hmem with hmem | hmem
    · rw [← Site.names_tallies] at hmem
      exact hrest other hother hmem
    · have hsame : other.name = job.name := by simpa using hmem
      exact hname (hsame ▸ List.mem_map_of_mem hother)

/-- Every call keeps the books. -/
theorem deed (hregistry : (List.map RegisteredJob.name registry).Nodup)
    (hjobs : ∀ job ∈ registry, job.LeavesTallies) {call : Call} (h : Books start xs s)
    (deed : Deed registry s call ys s') : Books start (xs ++ ys) s' := by
  cases deed with
  | registered =>
    rw [List.append_nil]
    refine h.registered (hregistry.sublist (List.filter_sublist.map _)) fun job hjob hmem => ?_
    have hnone : (row? s.office job.name).isNone := (List.mem_filter.mp hjob).2
    rw [Site.names_tallies, mem_names_iff] at hmem
    rw [Option.isNone_iff_eq_none.mp hnone] at hmem
    cases hmem
  | unready | unknown =>
    rw [List.append_nil]
    exact h
  | ran hjob turn => exact h.turn (hjobs _ hjob) turn
  | ranAll pass => exact h.pass hjobs pass
  | switched =>
    rw [List.append_nil]
    refine h.congr ?_
    unfold Site.tallies
    rw [List.map_map]
    refine List.map_congr_left fun row _ => ?_
    rw [Function.comp_apply]
    split
    · rfl
    · rfl

/-- So does every sequence of calls. -/
theorem history (hregistry : (List.map RegisteredJob.name registry).Nodup)
    (hjobs : ∀ job ∈ registry, job.LeavesTallies) {calls : List Call} (h : Books start xs s)
    (history : History registry s calls ys s') : Books start (xs ++ ys) s' := by
  induction history generalizing xs with
  | nil =>
    rw [List.append_nil]
    exact h
  | cons deed later ih =>
    rw [← List.append_assoc]
    exact ih (h.deed hregistry hjobs deed)

end Books

/-! ## Disabled jobs -/

theorem name_recorded (now : Moment) (row : Job) (outcome : Outcome) :
    (recorded now row outcome).name = row.name := by
  cases outcome with
  | refused | skipped | succeeded | failed => rfl

/-- An execution writes the row of its own job only, unless the function itself writes others. -/
theorem row?_leaves {x : Execution} {name : String} (hname : x.job.name ≠ name)
    (htallies : x.job.LeavesTallies) (hrow : x.job.LeavesRow name) (h : x.start.JobsApart) :
    row? x.leaves.office name = row? x.start.office name := by
  obtain ⟨hstored, hseen⟩ := hrow x.start
  have hleft : row? x.behind.left.office name = row? x.start.office name := hstored
  have hkept : row? x.kept.office name = row? x.start.office name := by
    unfold Execution.kept
    split
    · exact hleft
    · exact hseen
  unfold Execution.leaves
  cases hown : row? x.kept.office x.job.name with
  | none => exact hleft
  | some own =>
    obtain ⟨hmem, hown⟩ := name_of_row? hown
    rw [← hkept]
    show (x.kept.office.jobs.modify own.id _).rows.find? _ = x.kept.office.jobs.rows.find? _
    rw [Table.find?_modify _ fun row _ => by rw [name_recorded]]
    cases hother : x.kept.office.jobs.rows.find? fun row => row.name == name with
    | none => rfl
    | some other =>
      obtain ⟨hthere, hothername⟩ := name_of_row? hother
      have hkey : ¬ (Row.key other == own.id) = true := by
        intro hkey
        have hsame := (apart_kept htallies h).keysDistinct.eq_of_key_eq hthere hmem (beq_iff_eq.mp hkey)
        exact hname (hown.symm.trans (hsame ▸ hothername))
      rw [Option.map_some, if_neg hkey]

/-- The row is there as it was, and its job was not executed. -/
def Untouched (row : Job) (xs : List Execution) (s : Site) : Prop :=
  row? s.office row.name = some row ∧ ∀ x ∈ xs, x.job.name ≠ row.name

section Disabled

variable {registry : Registry} {ready : Bool} {s s' : Site} {xs : List Execution} {row : Job}

/-- A disabled job is passed over, and the turns of other jobs leave its row alone. -/
theorem Turn.untouched {job : RegisteredJob} (turn : Turn ready job s xs s')
    (htallies : job.LeavesTallies) (h : s.JobsApart) (hrow : row? s.office row.name = some row)
    (hdisabled : row.isEnabled = false) (hleaves : job.name ≠ row.name → job.LeavesRow row.name) :
    Untouched row xs s' := by
  cases turn with
  | refused | skipped => exact ⟨hrow, nofun⟩
  | executed hready henabled =>
    have hname : job.name ≠ row.name := by
      intro hname
      have htrue := henabled row (hname ▸ hrow)
      rw [hdisabled] at htrue
      cases htrue
    refine ⟨?_, by simpa using hname⟩
    rw [row?_leaves (x := ⟨job, s⟩) hname htallies (hleaves hname) h]
    exact hrow

theorem Pass.untouched {jobs : List RegisteredJob} (pass : Pass ready jobs s xs s')
    (htallies : ∀ job ∈ jobs, job.LeavesTallies) (h : s.JobsApart)
    (hrow : row? s.office row.name = some row) (hdisabled : row.isEnabled = false)
    (hleaves : ∀ job ∈ jobs, job.name ≠ row.name → job.LeavesRow row.name) : Untouched row xs s' := by
  induction pass with
  | nil => exact ⟨hrow, nofun⟩
  | cons turn later ih =>
    obtain ⟨htally, htallies⟩ := List.forall_mem_cons.mp htallies
    obtain ⟨hleave, hleaves⟩ := List.forall_mem_cons.mp hleaves
    obtain ⟨hrow, hfirst⟩ := turn.untouched htally h hrow hdisabled hleave
    obtain ⟨hrow, hrest⟩ := ih htallies ((Books.refl h).turn htally turn).apart hrow hleaves
    exact ⟨hrow, List.forall_mem_append.mpr ⟨hfirst, hrest⟩⟩

/-- Only a call that enables the job touches its row. -/
theorem Deed.untouched {call : Call} (deed : Deed registry s call xs s')
    (htallies : ∀ job ∈ registry, job.LeavesTallies) (h : s.JobsApart)
    (hrow : row? s.office row.name = some row) (hdisabled : row.isEnabled = false)
    (hcall : call ≠ .setEnabled row.name true)
    (hleaves : ∀ job ∈ registry, job.name ≠ row.name → job.LeavesRow row.name) :
    Untouched row xs s' := by
  cases deed with
  | registered =>
    refine ⟨?_, nofun⟩
    -- New rows stand behind the others.
    have hadded (jobs : List RegisteredJob) (table : Table Job) :
        ∃ new, (jobs.foldl addRow table).rows = table.rows ++ new := by
      induction jobs generalizing table with
      | nil => exact ⟨[], (List.append_nil _).symm⟩
      | cons job rest ih =>
        obtain ⟨new, hnew⟩ := ih (addRow table job)
        refine ⟨[{ id := table.nextKey, name := job.name, description := job.description }] ++ new, ?_⟩
        rw [List.foldl_cons, hnew, ← List.append_assoc]
        rfl
    obtain ⟨new, hnew⟩ := hadded (missing registry s) s.office.jobs
    have hfound : s.office.jobs.rows.find? (fun j => j.name == row.name) = some row := hrow
    show List.find? _ ((missing registry s).foldl addRow s.office.jobs).rows = _
    rw [hnew, List.find?_append, hfound]
    rfl
  | unready | unknown => exact ⟨hrow, nofun⟩
  | ran hjob turn => exact turn.untouched (htallies _ hjob) h hrow hdisabled (hleaves _ hjob)
  | ranAll pass => exact pass.untouched htallies h hrow hdisabled hleaves
  | @switched name isEnabled =>
    refine ⟨?_, nofun⟩
    have hname (other : Job) : (if other.name = name then { other with isEnabled } else other).name =
        other.name := by
      split
      · rfl
      · rfl
    have hfound : s.office.jobs.rows.find? (fun j => j.name == row.name) = some row := hrow
    show List.find? _ (s.office.jobs.rows.map _) = _
    rw [List.find?_map]
    simp only [Function.comp_def, hname, hfound, Option.map_some]
    by_cases hself : row.name = name
    · -- The call disables the job once more.
      have hfalse : isEnabled = row.isEnabled := by
        rw [hdisabled]
        cases isEnabled with
        | false => rfl
        | true => exact absurd (hself ▸ rfl) hcall
      rw [if_pos hself, hfalse]
    · rw [if_neg hself]

theorem History.untouched {calls : List Call} (history : History registry s calls xs s')
    (hregistry : (List.map RegisteredJob.name registry).Nodup)
    (htallies : ∀ job ∈ registry, job.LeavesTallies) (h : s.JobsApart)
    (hrow : row? s.office row.name = some row) (hdisabled : row.isEnabled = false)
    (hcalls : ∀ call ∈ calls, call ≠ .setEnabled row.name true)
    (hleaves : ∀ job ∈ registry, job.name ≠ row.name → job.LeavesRow row.name) :
    Untouched row xs s' := by
  induction history with
  | nil => exact ⟨hrow, nofun⟩
  | cons deed later ih =>
    obtain ⟨hcall, hcalls⟩ := List.forall_mem_cons.mp hcalls
    obtain ⟨hrow, hfirst⟩ := deed.untouched htallies h hrow hdisabled hcall hleaves
    obtain ⟨hrow, hrest⟩ := ih ((Books.refl h).deed hregistry htallies deed).apart hrow hcalls
    exact ⟨hrow, List.forall_mem_append.mpr ⟨hfirst, hrest⟩⟩

end Disabled

/-- Every sequence of calls is answered, and has a history. -/
theorem exists_history {registry : Registry}
    (hregistry : (List.map RegisteredJob.name registry).Nodup)
    (hjobs : ∀ job ∈ registry, job.LeavesTallies) {s : Site} (h : s.JobsApart) (calls : List Call) :
    ∃ xs s', (calls.forM (Call.perform registry)).exec s = (.ok (), s') ∧
      History registry s calls xs s' := by
  induction calls generalizing s with
  | nil => exact ⟨[], s, rfl, .nil⟩
  | cons call rest ih =>
    obtain ⟨xs, s', hexec, hdeed⟩ := exists_deed hregistry h call
    obtain ⟨ys, s'', hrest, hhistory⟩ := ih ((Books.refl h).deed hregistry hjobs hdeed).apart
    refine ⟨xs ++ ys, s'', ?_, .cons hdeed hhistory⟩
    rw [Task.exec_forM_cons, Task.exec_bind_ok hexec, hrest]

/-- A job that stores one workspace, writes a second one, and fails. -/
def flaky : RegisteredJob where
  name := "flaky"
  about := none
  work := do
    Session.storing (found "stored")
    Session.draft (found "written")
    throw (.broken "disk full")
where
  /-- Adds a workspace. -/
  found (name : String) : SiteTask Unit := Site.within (modify fun o =>
    { o with workspaces := o.workspaces.add fun id => { id, name, createdAt := o.clock } })

/-- A job that returns a number. -/
def steady : RegisteredJob where
  name := "steady"
  about := none
  work := pure (.int 3)

/-- A job that fails, and has been disabled. -/
def paused : RegisteredJob where
  name := "paused"
  about := none
  work := throw (.broken "asleep")

/-- A site on which one of three jobs has a row, and is disabled. -/
def quietSite : Site where
  office := {
    clock := ⟨0⟩
    settings := []
    jobs := ⟨[{ id := 1, name := "paused", description := "", isEnabled := false, runCount := 4 }]⟩ }

/-- What the failing job stored before it failed stays, and the other workspace is lost. -/
example : (Execution.leaves ⟨flaky, quietSite⟩).office.workspaces.rows.map Workspace.name = ["stored"] :=
  rfl

end Scheduler
end Signoff
