import Signoff.Proofs.Approval.Faults

/-! # Whoever listens

    Automations react to an event while the call that tells it is still going on,
    and may change the item, its board and its cells under that call. They cannot
    reach the approvals, nor what the call answers: every decision about rows is
    taken before anything is told, telling does not fail, and no channel writes
    approvals.

    * `Channels.unheard`: the same channels with nobody who listens.
    * `agree_request`, `agree_follow`, `agree_transition`: calls that differ in
      their channels only agree on the answer and on the approvals.
    * `outcome_unheard`: so they might as well have nobody who listens.
-/

open Signoff.Task (Agree Keeps Same)

namespace Signoff

/-- The channels with nobody who listens. -/
def Channels.unheard (c : Channels) : Channels := { c with listener := .nobody }

namespace Approvals

open Site

variable {item : Item} {actor comments : Option String}

/-! ## Telling -/

theorem agree_announce (c c' : Channels) (item : Item) (opened : List Approval)
    (actor : Option String) :
    Agree approvals (c.announce item opened actor) (c'.announce item opened actor) :=
  .of_returns (returns_announce c item opened actor) (returns_announce c' item opened actor)
    (keeps_announce c item opened actor) (keeps_announce c' item opened actor)

theorem agree_sendComplete (c c' : Channels) (item : Item) :
    Agree approvals (c.send item Subject.allComplete) (c'.send item Subject.allComplete) := by
  have hreturns (c : Channels) : Task.Returns (c.send item Subject.allComplete) :=
    returns_send c item fun s m hm => s.isText_allComplete hm
  exact .of_returns (hreturns c) (hreturns c') (keeps_send c item _) (keeps_send c' item _)

theorem agree_tellApproved (c c' : Channels) (item : Item) (d : Approval)
    (actor comments : Option String) (completed : Bool) (aftermath : Aftermath) :
    Agree approvals (tellApproved c item d actor comments completed aftermath)
      (tellApproved c' item d actor comments completed aftermath) := by
  have hkeeps (c : Channels) : Keeps (Same approvals)
      (tellApproved c item d actor comments completed aftermath) :=
    keeps_tellApproved c item d actor comments completed aftermath (keeps_anyTell c item _ actor _)
  exact .of_returns (returns_tellApproved c item d actor comments completed aftermath)
    (returns_tellApproved c' item d actor comments completed aftermath) (hkeeps c) (hkeeps c')

theorem agree_tellRejected (c c' : Channels) (item : Item) (d : Approval)
    (actor comments : Option String) :
    Agree approvals (tellRejected c item d actor comments)
      (tellRejected c' item d actor comments) :=
  .of_returns (returns_tellRejected c item d actor comments)
    (returns_tellRejected c' item d actor comments) (keeps_tellRejected c item d actor comments)
    (keeps_tellRejected c' item d actor comments)

/-! ## Requests and decisions -/

/-- A request has its rows before it tells about them. -/
theorem agree_request (c c' : Channels) (itemId : Int) (actor : Option String) :
    Agree approvals (request c itemId actor) (request c' itemId actor) := by
  refine .bind _ fun item => .bind _ fun _ => .bind _ fun (w, e) => .ite ?_ ?_
  · refine .bind _ fun created => .ite ?_ (.refl _)
    exact (agree_sendComplete c c' item).bind_pure fun _ => created
  · refine .bind _ fun created => ?_
    exact (agree_announce c c' item _ actor).bind_pure fun _ => created

/-- What follows a decision goes on before it tells about it. -/
theorem agree_follow (c c' : Channels) (item : Item) (w : Workflow) (wasSatisfied : Bool)
    (d : Approval) (actor comments : Option String) :
    Agree approvals (follow c item w wasSatisfied d actor comments)
      (follow c' item w wasSatisfied d actor comments) := by
  unfold follow
  cases d.status with
  | approved =>
    have htell (completed : Bool) (aftermath : Aftermath) :=
      agree_tellApproved c c' item d actor comments completed aftermath
    -- The flow goes on alike, whether or not the level was completed.
    refine .bind _ fun s => .ite ?_ ?_
    · exact .bind _ fun aftermath => htell _ aftermath
    · exact .bind _ fun aftermath => htell _ aftermath
  | rejected => exact agree_tellRejected c c' item d actor comments
  | pending => exact .refl _
  | other word => exact .refl _

/-- A decision is written before anything is told about it. -/
theorem agree_transition (c c' : Channels) (key : Int) (requested : Value)
    (actor comments : Option String) :
    Agree approvals (transition c key requested actor comments)
      (transition c' key requested actor comments) := by
  refine .bind _ fun (a, next) => .bind _ fun item => .bind _ fun w => .bind _ fun s => ?_
  refine .bind _ fun d => ?_
  exact (agree_follow c c' item w _ d actor comments).bind_pure fun _ => d

/-- In every state, whatever automations are kept there and whatever other systems reply to them, a
    request or a decision answers the same and leaves the same approvals behind as with nobody who
    listens. -/
theorem outcome_unheard (s : Site) (c : Channels) :
    (∀ itemId actor,
        (request c itemId actor).answer s = (request c.unheard itemId actor).answer s ∧
          ((request c itemId actor).after s).approvals =
            ((request c.unheard itemId actor).after s).approvals) ∧
      ∀ key requested actor comments,
        (transition c key requested actor comments).answer s =
            (transition c.unheard key requested actor comments).answer s ∧
          ((transition c key requested actor comments).after s).approvals =
            ((transition c.unheard key requested actor comments).after s).approvals := by
  constructor
  · intro itemId actor
    exact agree_request c c.unheard itemId actor s
  · intro key requested actor comments
    exact agree_transition c c.unheard key requested actor comments s

end Approvals

end Signoff
