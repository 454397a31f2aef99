import Signoff.Site.Basic

/-! # Sessions

A job works in a session of its own. What it writes is seen by itself at once, and stored as soon as the
session is committed. A session that is rolled back, or closed, loses what was not stored until then.
-/

namespace Signoff

/-- The office with the tables of another one. The clock, the settings and the traffic with other systems
are not kept in tables. -/
def Office.withTables (o stored : Office) : Office :=
  { stored with
    clock := o.clock
    settings := o.settings
    replies := o.replies
    calls := o.calls
    heard := o.heard }

/-- The site with the tables of another one. -/
def Site.withTables (s stored : Site) : Site :=
  { stored with office := s.office.withTables stored.office, known := s.known }

/-- A session: what is stored, and the site as the session sees it. -/
structure Session where
  stored : Site
  seen : Site

/-- An operation in a session. -/
abbrev SessionTask (α : Type) := Task Session α

namespace Session

variable {α : Type}

/-- A session in which nothing has been written yet. -/
def opened (site : Site) : Session := ⟨site, site⟩

/-- What is left of the site without the writes that are not stored. -/
def left (w : Session) : Site := w.seen.withTables w.stored

/-- Carries out an operation on the site whose writes are not stored yet. -/
def draft (task : SiteTask α) : SessionTask α :=
  ExceptT.mk fun w =>
    let (r, seen) := task.run.run w.seen
    (r, { w with seen })

/-- Carries out an operation on the site that stores what it writes, also if it fails later. -/
def storing (task : SiteTask α) : SessionTask α :=
  ExceptT.mk fun w =>
    let (r, site) := task.run.run w.seen
    (r, opened site)

/-- Stores the writes. -/
def commit : SessionTask Unit := modify fun w => opened w.seen

/-- Takes back the writes that are not stored. -/
def rollback : SessionTask Unit := modify fun w => opened w.left

/-- Carries out an operation in a session of its own, which is closed behind it. -/
def within (task : SessionTask α) : SiteTask α :=
  ExceptT.mk fun site =>
    let (r, w) := task.run.run (opened site)
    (r, w.left)

end Session
end Signoff
