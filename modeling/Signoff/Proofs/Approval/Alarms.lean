import Signoff.Proofs.Approval.Telling

/-! # Alerts about one deadline

    An alert goes to the approver of an approval, in front of its deadline and
    behind it, if nothing of the kind was sent lately:

    * `Office.about`: the notifications about an approval.
    * `Alerts.alarmOf`: the alert that is due, as a function of the state. One step
      of a pass finds just this, and sends it (`exec_alert`).
    * `about_alert`, `newsOf_of_ne`: a step adds notifications about its own approval,
      and about no other.
    * `Site.Resembles`, `newsOf_congr`: what they depend on.
-/

open Signoff.Task (Keeps Returns)

namespace Signoff

/-! ## Notifications about an approval -/

/-- Is the notification about the approval of this key? -/
def Notification.isAbout (n : Notification) (key : Int) : Bool :=
  (n.metadata.get "approvalId").looseEq (.int key)

/-- What the notification says, whatever its own key is. -/
def Notification.content (n : Notification) : Notification := { n with id := 0 }

/-- What was sent about the approval of a key, in the order in which it was sent. -/
def Office.about (o : Office) (key : Int) : List Notification :=
  (o.notifications.rows.filter (·.isAbout key)).map (·.content)

/-- The notification that a message becomes, if it can be kept. -/
def Message.kept (m : Message) (now : Moment) : List Notification :=
  match Office.keepNotice m.notice (.text m.user) with
  | .ok make => [make 0 now]
  | .error _ => []

/-- What is sent about the approval of a key with messages about an item. -/
def Channels.told (c : Channels) (o : Office) (item : Item) (messages : Subject → List Message)
    (key : Int) : List Notification :=
  if c.delivers then
    ((messages (o.subjectOf ((o.items.get? item.id).getD item))).flatMap (·.kept o.clock)).filter
      (·.isAbout key)
  else []

namespace Office

/-- What was sent lately about an approval is found among what was sent about it. -/
theorem sentSince_eq (o : Office) (user : String) (types : List String) (since : Moment)
    (key : Int) :
    o.sentSince user types since "approvalId" (.int key) = (o.about key).any fun n =>
      n.user == user && types.contains n.type && since.micros ≤ n.createdAt.micros := by
  unfold sentSince about
  rw [List.any_map, List.any_filter]
  congr 1
  funext n
  exact Bool.and_comm _ _

/-- A notice that is kept says the same under every key. -/
theorem content_of_keepNotice {n : Notice} {user : Value} {make : Int → Moment → Notification}
    (h : keepNotice n user = .ok make) (id : Int) (now : Moment) :
    (make id now).content = make 0 now ∧ (make id now).metadata = n.metadata := by
  unfold keepNotice at h
  obtain ⟨_, -, h⟩ := Result.bind_eq_ok h
  obtain ⟨_, -, h⟩ := Result.bind_eq_ok h
  obtain ⟨_, -, h⟩ := Result.bind_eq_ok h
  obtain ⟨_, -, h⟩ := Result.bind_eq_ok h
  obtain ⟨_, -, h⟩ := Result.bind_eq_ok h
  obtain ⟨_, -, h⟩ := Result.bind_eq_ok h
  cases h
  exact ⟨rfl, rfl⟩

/-- A message adds the notification that it becomes, if that is about the approval. -/
theorem about_notify (m : Message) (key : Int) (o : Office) :
    ((notify (.text m.user) m.notice).after o).about key =
      o.about key ++ (m.kept o.clock).filter (·.isAbout key) := by
  unfold notify Message.kept
  cases hmake : keepNotice m.notice (.text m.user) with
  | error fault => exact (List.append_nil _).symm
  | ok make =>
    obtain ⟨hcontent, hmetadata⟩ := content_of_keepNotice hmake o.notifications.nextKey o.clock
    have hzero := (content_of_keepNotice hmake 0 o.clock).2
    show Office.about { o with notifications := o.notifications.add fun _ => _ } key = _
    unfold about Notification.isAbout
    rw [Table.rows_add, List.filter_append, List.map_append, List.filter_singleton,
      List.filter_singleton, hmetadata, hzero]
    cases (m.notice.metadata.get "approvalId").looseEq (.int key) with
    | true => rw [cond_true, cond_true, List.map_singleton, hcontent]
    | false => rfl

end Office

namespace Site

variable {s s' : Site}

/-- Messages are sent one by one, all of them at the same moment. -/
theorem about_forM {l : List Message} (h : ∀ m ∈ l, m.notice.IsText) (key : Int) (s : Site) :
    ((l.forM fun m => discard (within (Office.notify (.text m.user) m.notice))).after s).office.about
        key =
      s.office.about key ++ (l.flatMap (·.kept s.office.clock)).filter (·.isAbout key) := by
  induction l generalizing s with
  | nil => exact (List.append_nil _).symm
  | cons m rest ih =>
    have hreturns : Returns (discard (within (Office.notify (.text m.user) m.notice))) :=
      (Office.returns_notify (h m (List.mem_cons_self ..)) m.user).within.discard
    obtain ⟨_, hafter⟩ := hreturns.after_bind (fun _ => rest.forM fun m =>
      discard (within (Office.notify (.text m.user) m.notice))) s
    obtain ⟨notices, hnotices⟩ := Office.after_notify (.text m.user) m.notice s.office
    -- The clock stands still, so the rest is kept with the same moment.
    have hclock : ((Office.notify (.text m.user) m.notice).after s.office).clock = s.office.clock := by
      rw [hnotices]
    have hoffice : ((within (Office.notify (.text m.user) m.notice)).after s).office =
      (Office.notify (.text m.user) m.notice).after s.office := rfl
    rw [Task.after_discard] at hafter
    refine (congrArg (fun s : Site => s.office.about key) hafter).trans ?_
    rw [ih fun m' hm' => h m' (List.mem_cons_of_mem _ hm'), hoffice, Office.about_notify, hclock,
      List.flatMap_cons, List.filter_append, List.append_assoc]

theorem about_send (c : Channels) (item : Item) {messages : Subject → List Message}
    (h : ∀ s, ∀ m ∈ messages s, m.notice.IsText) (key : Int) (s : Site) :
    ((c.send item messages).after s).office.about key =
      s.office.about key ++ c.told s.office item messages key := by
  unfold Channels.send Channels.told
  split
  · exact about_forM (h _) key s
  · exact (List.append_nil _).symm

end Site

/-! ## What is due -/

/-- The deadline of an approval that has so many hours. -/
def Approval.deadline (a : Approval) (timeout : Float) : Result Moment := do
  a.createdAt.plus (← Duration.ofHours (.float timeout))

namespace Alerts

/-- A deadline, and the hours that are left until then. -/
structure Alarm where
  deadline : Moment
  hoursLeft : Float

namespace Alarm

/-- What is sent about the deadline. -/
def messages (x : Alarm) (a : Approval) (s : Subject) : List Message :=
  if 0.0 < x.hoursLeft then s.deadlineApproaching a.pending x.deadline (.float x.hoursLeft)
  else s.deadlinePassed a.pending x.deadline (.float (-x.hoursLeft))

/-- Is it time to send it? Not if the deadline is further off than the lead, nor if the approver has
    heard about it lately. -/
def isDue (x : Alarm) (o : Office) (lead : Value) (approver : String) (key : Int) : Result Bool :=
  if 0.0 < x.hoursLeft then do
    if !(← atMost x.hoursLeft lead) then pure false
    else
      let wasSent ← o.sentWithin approver
        ["approval_deadline_approaching", "approval_deadline_passed"] (.int 12) "approvalId" (.int key)
      pure !wasSent
  else do
    let wasSent ← o.sentWithin approver ["approval_deadline_passed"] (.int 24) "approvalId"
      (.int key)
    pure !wasSent

end Alarm

/-- The alert that is due about an approval, and the item that it is about. -/
def alarmOf (s : Site) (lead : Value) (now : Moment) (a : Approval) : Result (Option (Item × Alarm)) :=
  match addressee? s a with
  | none => pure none
  | some (approver, item) => do
    let w ← s.workflow? item.boardId
    match timeoutOf? w a with
    | none => pure none
    | some timeout =>
      let deadline ← a.deadline timeout
      let x : Alarm := ⟨deadline, Duration.hours (now.between deadline)⟩
      let isDue ← x.isDue s.office lead approver a.id
      pure (if isDue then some (item, x) else none)

/-- The notifications about the approval of a key that an alert adds. -/
def newsOf (c : Channels) (s : Site) (lead : Value) (now : Moment) (a : Approval) (key : Int) :
    List Notification :=
  match alarmOf s lead now a with
  | .ok (some (item, x)) => c.told s.office item (x.messages a) key
  | _ => []

/-! ## One step -/

variable {s s' : Site} {c : Channels} {lead : Value} {now : Moment} {counts : DeadlineCounts}
  {a : Approval}

/-- Sends an alert if it is time for it. -/
def raise (c : Channels) (lead : Value) (counts : DeadlineCounts) (a : Approval) (approver : String)
    (item : Item) (x : Alarm) : SiteTask DeadlineCounts := do
  if 0.0 < x.hoursLeft then
    if !(← Task.ofResult (atMost x.hoursLeft lead)) then pure counts
    else if ← sentWithin approver
        ["approval_deadline_approaching", "approval_deadline_passed"] 12 a.id then pure counts
    else
      c.send item fun s => s.deadlineApproaching a.pending x.deadline (.float x.hoursLeft)
      pure { counts with approaching := counts.approaching + 1 }
  else if ← sentWithin approver ["approval_deadline_passed"] 24 a.id then pure counts
  else
    c.send item fun s => s.deadlinePassed a.pending x.deadline (.float (-x.hoursLeft))
    pure { counts with overdue := counts.overdue + 1 }

/-- A step looks for the deadline of the approval first, and then sends the alert. -/
theorem alert_eq (c : Channels) (lead : Value) (now : Moment) (counts : DeadlineCounts) (a : Approval) :
    alert c lead now counts a = (do
      match addressee? (← get) a with
      | none => pure counts
      | some (approver, item) =>
        let w ← Site.workflowOf item.boardId
        match timeoutOf? w a with
        | none => pure counts
        | some timeout =>
          let deadline ← Task.ofResult (a.deadline timeout)
          raise c lead { counts with checked := counts.checked + 1 } a approver item
            ⟨deadline, Duration.hours (now.between deadline)⟩) := rfl

/-- An alert says texts. -/
theorem Alarm.isText_messages (x : Alarm) (a : Approval) (s : Subject) :
    ∀ m ∈ x.messages a s, m.notice.IsText := by
  intro m hm
  unfold messages at hm
  split at hm
  · exact Subject.isText_of_mem_toUser ⟨_, _, _, rfl, rfl, rfl⟩ hm
  · exact Subject.isText_of_mem_toUser ⟨_, _, _, rfl, rfl, rfl⟩ hm

/-- Sending always gets through, and then something is counted. -/
theorem exec_send_bind (c : Channels) (item : Item) (a : Approval) (x : Alarm)
    (counts' : DeadlineCounts) (s : Site) :
    (do c.send item (x.messages a); pure counts' : SiteTask DeadlineCounts).exec s =
      (.ok counts', (c.send item (x.messages a)).after s) := by
  obtain ⟨_, hsent⟩ := Site.returns_send c item (fun s => x.isText_messages a s) s
  exact Task.exec_bind_ok (Prod.ext hsent rfl)

theorem exec_sentWithin (user : String) (types : List String) (hours key : Int) (s : Site) :
    (sentWithin user types hours key).exec s =
      (s.office.sentWithin user types (.int hours) "approvalId" (.int key), s) := by
  unfold sentWithin
  rw [Task.exec_get_bind, Task.exec_ofResult]

/-- The alert is sent if it is due. -/
theorem exec_raise (c : Channels) (lead : Value) (counts : DeadlineCounts) (a : Approval)
    (approver : String) (item : Item) (x : Alarm) (s : Site) :
    match x.isDue s.office lead approver a.id with
    | .error fault => (raise c lead counts a approver item x).exec s = (.error fault, s)
    | .ok false => (raise c lead counts a approver item x).exec s = (.ok counts, s)
    | .ok true => ∃ counts', (raise c lead counts a approver item x).exec s =
        (.ok counts', (c.send item (x.messages a)).after s) := by
  unfold raise Alarm.isDue
  -- In front of the deadline the lead counts as well, and the messages are others.
  by_cases hahead : 0.0 < x.hoursLeft
  · have hmessages : x.messages a =
        fun s => s.deadlineApproaching a.pending x.deadline (.float x.hoursLeft) := by
      funext s
      exact if_pos hahead
    rw [if_pos hahead, if_pos hahead, Task.exec_bind, Task.exec_ofResult, ← hmessages]
    cases atMost x.hoursLeft lead with
    | error fault => rfl
    | ok isNear =>
      cases isNear with
      | false => rfl
      | true =>
        simp only [Bool.not_true, Bool.false_eq_true, if_false, Task.exec_bind, exec_sentWithin]
        cases s.office.sentWithin approver _ (.int 12) "approvalId" (.int a.id) with
        | error fault => rfl
        | ok wasSent =>
          cases wasSent with
          | true => rfl
          | false => exact ⟨_, exec_send_bind c item a x _ s⟩
  · have hmessages : x.messages a =
        fun s => s.deadlinePassed a.pending x.deadline (.float (-x.hoursLeft)) := by
      funext s
      exact if_neg hahead
    rw [if_neg hahead, if_neg hahead, Task.exec_bind, exec_sentWithin, ← hmessages]
    cases s.office.sentWithin approver _ (.int 24) "approvalId" (.int a.id) with
    | error fault => rfl
    | ok wasSent =>
      cases wasSent with
      | true => rfl
      | false => exact ⟨_, exec_send_bind c item a x _ s⟩

/-- A step finds what is due, and sends it. -/
theorem exec_alert (c : Channels) (lead : Value) (now : Moment) (counts : DeadlineCounts) (a : Approval)
    (s : Site) : ∃ s', (s' = s ∨ ∃ boardId, s' = s.lookedUp boardId) ∧
      match alarmOf s lead now a with
      | .error fault => (alert c lead now counts a).exec s = (.error fault, s')
      | .ok none => ∃ counts', (alert c lead now counts a).exec s = (.ok counts', s')
      | .ok (some (item, x)) => ∃ counts',
          (alert c lead now counts a).exec s = (.ok counts', (c.send item (x.messages a)).after s') := by
  rw [alert_eq, Task.exec_get_bind]
  unfold alarmOf
  cases addressee? s a with
  | none => exact ⟨s, .inl rfl, counts, rfl⟩
  | some found =>
    obtain ⟨approver, item⟩ := found
    -- The workflow is looked up from here on, whatever comes of it.
    refine ⟨s.lookedUp item.boardId, .inr ⟨item.boardId, rfl⟩, ?_⟩
    simp only
    rw [Task.exec_bind, Site.exec_workflowOf]
    cases s.workflow? item.boardId with
    | error fault => rfl
    | ok w =>
      simp only [Result.ok_bind]
      cases timeoutOf? w a with
      | none => exact ⟨counts, rfl⟩
      | some timeout =>
        simp only [Task.exec_bind, Task.exec_ofResult]
        cases a.deadline timeout with
        | error fault => rfl
        | ok deadline =>
          simp only [Result.ok_bind]
          have hraise := exec_raise c lead { counts with checked := counts.checked + 1 } a approver item
            ⟨deadline, Duration.hours (now.between deadline)⟩ (s.lookedUp item.boardId)
          rw [Site.lookedUp_office] at hraise
          cases hdue : Alarm.isDue ⟨deadline, _⟩ s.office lead approver a.id with
          | error fault =>
            rw [hdue] at hraise
            exact hraise
          | ok isDue =>
            rw [hdue] at hraise
            cases isDue with
            | false => exact ⟨_, hraise⟩
            | true => exact hraise

/-- Behind a step the same workflows count, and whatever was sent is there as well. -/
theorem alike_alert (c : Channels) (lead : Value) (now : Moment) (counts : DeadlineCounts) (a : Approval) :
    Keeps Site.Alike (alert c lead now counts a) := by
  intro s
  obtain ⟨s', hlooked, hexec⟩ := exec_alert c lead now counts a s
  have halike : s.Alike s' := by
    rcases hlooked with rfl | ⟨boardId, rfl⟩
    · exact Std.Refl.refl s'
    · exact Site.Curious.lookedUp s boardId
  unfold Task.after
  split at hexec
  · rw [hexec]
    exact halike
  · obtain ⟨_, hexec⟩ := hexec
    rw [hexec]
    exact halike
  · next item x _ =>
    obtain ⟨_, hexec⟩ := hexec
    rw [hexec]
    exact IsTrans.trans _ _ _ halike (Site.alike_send c item (x.messages a) s')

/-- A step adds the news about the approval of a key to what was sent about it. -/
theorem about_alert (c : Channels) (lead : Value) (now : Moment) (counts : DeadlineCounts) (a : Approval)
    (key : Int) (s : Site) :
    ((alert c lead now counts a).after s).office.about key =
      s.office.about key ++ newsOf c s lead now a key := by
  obtain ⟨s', hlooked, hexec⟩ := exec_alert c lead now counts a s
  have hoffice : s'.office = s.office := by
    rcases hlooked with rfl | ⟨boardId, rfl⟩
    · rfl
    · exact Site.lookedUp_office s boardId
  unfold Task.after newsOf
  split at hexec
  · next hnews =>
    rw [hexec, hnews, hoffice, List.append_nil]
  · next hnews =>
    obtain ⟨_, hexec⟩ := hexec
    rw [hexec, hnews, hoffice, List.append_nil]
  · next item x hnews =>
    obtain ⟨_, hexec⟩ := hexec
    rw [hexec, hnews, ← hoffice]
    exact Site.about_send c item (fun s => x.isText_messages a s) key s'

/-- A step returns if it finds out what is due. -/
theorem answer_alert_eq_ok : (∃ counts', (alert c lead now counts a).answer s = .ok counts') ↔
    ∃ found, alarmOf s lead now a = .ok found := by
  obtain ⟨s', -, hexec⟩ := exec_alert c lead now counts a s
  unfold Task.answer
  split at hexec
  · next fault hfault =>
    rw [hexec, hfault]
    simp
  · next hfound =>
    obtain ⟨counts', hexec⟩ := hexec
    rw [hexec, hfound]
    simp
  · next item x hfound =>
    obtain ⟨counts', hexec⟩ := hexec
    rw [hexec, hfound]
    simp

/-! ## What a step depends on -/

/-- Everything that is sent about a deadline names the approval. -/
theorem Alarm.isAbout_messages {x : Alarm} {a : Approval} {subject : Subject} {m : Message}
    (hm : m ∈ x.messages a subject) :
    m.notice.metadata.get "approvalId" = .int a.id := by
  unfold messages at hm
  split at hm
  · rw [Message.notice_of_mem_toUser hm]
    rfl
  · rw [Message.notice_of_mem_toUser hm]
    rfl

/-- No step sends anything about another approval. -/
theorem newsOf_of_ne {key : Int} (h : a.id ≠ key) : newsOf c s lead now a key = [] := by
  unfold newsOf Channels.told
  split
  · split
    · rw [List.filter_eq_nil_iff]
      intro n hn
      obtain ⟨m, hm, hkept⟩ := List.mem_flatMap.mp hn
      unfold Message.kept at hkept
      split at hkept
      · next make hmake =>
        rw [List.mem_singleton.mp hkept, Notification.isAbout,
          (Office.content_of_keepNotice hmake 0 _).2, Alarm.isAbout_messages hm]
        simpa [Value.looseEq, Value.asInt?] using h
      · cases hkept
    · rfl
  · rfl

end Alerts

/-- Two sites look the same where the alert about an approval looks. -/
structure Site.Resembles (s s' : Site) (a : Approval) : Prop where
  clock : s'.office.clock = s.office.clock
  items : s'.office.items = s.office.items
  boards : s'.office.boards = s.office.boards
  /-- The same workflow counts for the item. -/
  workflow : ∀ item, s.office.items.get? a.itemId = some item →
    s'.workflow? item.boardId = s.workflow? item.boardId
  /-- The same was sent about the approval before. -/
  sent : s'.office.about a.id = s.office.about a.id

namespace Alerts

variable {s s' : Site} {c : Channels} {lead : Value} {now : Moment} {a : Approval}

/-- Who is addressed is the approver, about the item of the approval. -/
theorem get?_of_addressee? {approver : String} {item : Item} (h : addressee? s a = some (approver, item)) :
    s.office.items.get? a.itemId = some item := by
  unfold addressee? at h
  rw [Option.bind_eq_bind, Option.bind_eq_some_iff] at h
  obtain ⟨_, -, h⟩ := h
  rw [Option.bind_eq_bind, Option.bind_eq_some_iff] at h
  obtain ⟨found, hfound, h⟩ := h
  split at h
  · cases h
  · cases h
    exact (Option.filter_eq_some_iff.mp hfound).1

theorem addressee?_congr (h : s'.office.items = s.office.items) : addressee? s' a = addressee? s a := by
  unfold addressee? Site.liveItemOf?
  rw [h]

theorem Alarm.isDue_congr {x : Alarm} {o o' : Office} {approver : String} {key : Int}
    (hclock : o'.clock = o.clock) (hsent : o'.about key = o.about key) :
    x.isDue o' lead approver key = x.isDue o lead approver key := by
  have hwithin (types : List String) (hours : Value) :
      o'.sentWithin approver types hours "approvalId" (.int key) =
        o.sentWithin approver types hours "approvalId" (.int key) := by
    unfold Office.sentWithin
    simp only [Office.sentSince_eq, hclock, hsent]
  unfold isDue
  rw [hwithin, hwithin]

/-- Sites that look the same have the same alert due, -/
theorem alarmOf_congr (h : s.Resembles s' a) : alarmOf s' lead now a = alarmOf s lead now a := by
  unfold alarmOf
  rw [addressee?_congr h.items]
  cases hfound : addressee? s a with
  | none => rfl
  | some found =>
    obtain ⟨approver, item⟩ := found
    simp only [h.workflow item (get?_of_addressee? hfound), Alarm.isDue_congr h.clock h.sent]

/-- and the same is sent. -/
theorem newsOf_congr (h : s.Resembles s' a) (key : Int) :
    newsOf c s' lead now a key = newsOf c s lead now a key := by
  unfold newsOf Channels.told Office.subjectOf Office.workspaceOf?
  rw [alarmOf_congr h, h.items, h.boards, h.clock]

end Alerts

theorem Site.Alike.resembles {s s' : Site} {a : Approval} (h : s.Alike s')
    (hsent : s'.office.about a.id = s.office.about a.id) : s.Resembles s' a := by
  obtain ⟨notices, heard, hoffice⟩ := h.office
  constructor
  · rw [hoffice]
  · rw [hoffice]
  · rw [hoffice]
  · exact fun item _ => h.workflow item.boardId
  · exact hsent

end Signoff
