import Signoff.Proofs.Approval.Deadlines

/-! # Pauses between alerts

    An alert is held back if something of its kind was sent to the same user
    about the same approval lately:

    * `Alerts.Kind`: the kinds of alerts, which of them hold back which, and for
      how long.
    * `Office.alerts`: the alerts about an approval, in the order in which they
      were sent.
    * `Alerts.Spaced`: two alerts that do not come too close.
    * `Alerts.Prolongs`: what comes behind some alerts keeps its distance.
    * `Site.Watched`: the alerts are prolonged so while something stays.
      `watched_remind`, `watched_alert`, `watched_escalate`: the steps that send
      them do this.
    * `Operation.prolongs_alerts`, `Site.prolongs_run`: so does every operation, and
      every run.
-/

open Signoff.Task (Keeps Same)

namespace Signoff

namespace Alerts

/-! ## Kinds -/

/-- The kinds of alerts about an approval. -/
inductive Kind where
  | reminder
  | approaching
  | passed
  | escalation
deriving DecidableEq, Repr

namespace Kind

/-- The type of the notifications of a kind. -/
def word : Kind → String
  | reminder => "approval_reminder"
  | approaching => "approval_deadline_approaching"
  | passed => "approval_deadline_passed"
  | escalation => "approval_escalation"

/-- The kind that a type of notifications stands for. -/
def ofWord? (word : String) : Option Kind :=
  [reminder, approaching, passed, escalation].find? fun kind => kind.word == word

theorem ofWord?_word (kind : Kind) : ofWord? kind.word = some kind := by
  cases kind <;> rfl

theorem word_of_ofWord? {word : String} {kind : Kind} (h : ofWord? word = some kind) :
    kind.word = word :=
  beq_iff_eq.mp (List.find?_some (p := fun kind : Kind => kind.word == word) h)

/-- Messages about a single step of the workflow are no alerts. -/
theorem ofWord?_ordinary {m : Message} (h : m.IsOrdinary) : ofWord? m.notice.type = none := by
  simp only [Message.IsOrdinary, Message.ordinaryTypes, List.mem_cons, List.not_mem_nil,
    or_false] at h
  rcases h with h | h | h | h <;> rw [h] <;> rfl

/-- The kinds that hold back an alert of this kind, -/
def holders : Kind → List Kind
  | approaching => [approaching, passed]
  | kind => [kind]

/-- for so many hours. -/
def pause : Kind → Int
  | approaching => 12
  | _ => 24

end Kind

/-- An alert as it was sent. -/
structure Alert where
  kind : Kind
  user : String
  sentAt : Moment
deriving DecidableEq, Repr

/-- Between an alert and one behind it that it holds back there is a pause. -/
def Spaced (x y : Alert) : Prop :=
  x.user = y.user → x.kind ∈ y.kind.holders →
    x.sentAt.micros + y.kind.pause * Duration.hourMicros < y.sentAt.micros

end Alerts

open Alerts

/-- The alert that the notification is, if it is one. -/
def Notification.alert? (n : Notification) : Option Alert :=
  (Kind.ofWord? n.type).map fun kind => ⟨kind, n.user, n.createdAt⟩

/-- The alerts about the approval of a key, in the order in which they were sent. -/
def Office.alerts (o : Office) (key : Int) : List Alert := (o.about key).filterMap (·.alert?)

namespace Alerts

variable {P Q : Alert → Prop} {old all more : List Alert} {key : Int}

/-! ## Distances -/

/-- Behind `old` come alerts that satisfy `P`, each of them spaced from all those in front. -/
def Prolongs (P : Alert → Prop) (old all : List Alert) : Prop :=
  ∃ new, all = old ++ new ∧ new.Pairwise Spaced ∧ (∀ x ∈ old, ∀ y ∈ new, Spaced x y) ∧ ∀ y ∈ new, P y

namespace Prolongs

theorem refl (old : List Alert) : Prolongs P old old := ⟨[], by simp⟩

theorem trans (h : Prolongs P old all) (h' : Prolongs P all more) : Prolongs P old more := by
  obtain ⟨new, rfl, hspaced, hcross, hP⟩ := h
  obtain ⟨new', rfl, hspaced', hcross', hP'⟩ := h'
  refine ⟨new ++ new', List.append_assoc .., ?_, ?_, ?_⟩
  · refine List.pairwise_append.mpr ⟨hspaced, hspaced', fun x hx => ?_⟩
    exact hcross' x (List.mem_append_right _ hx)
  · intro x hx y hy
    rcases List.mem_append.mp hy with hy | hy
    · exact hcross x hx y hy
    · exact hcross' x (List.mem_append_left _ hx) y hy
  · intro y hy
    rcases List.mem_append.mp hy with hy | hy
    · exact hP y hy
    · exact hP' y hy

theorem imp (h : Prolongs P old all) (hPQ : ∀ y, P y → Q y) : Prolongs Q old all := by
  obtain ⟨new, hall, hspaced, hcross, hP⟩ := h
  exact ⟨new, hall, hspaced, hcross, fun y hy => hPQ y (hP y hy)⟩

/-- One more alert that is spaced from all others. -/
theorem of_append {y : Alert} (hspaced : ∀ x ∈ old, Spaced x y) (hP : P y) :
    Prolongs P old (old ++ [y]) :=
  ⟨[y], rfl, List.pairwise_singleton _ _, by simpa using hspaced, by simpa using hP⟩

end Prolongs

end Alerts

namespace Office

variable {o : Office} {key : Int}

/-- Whoever looks for an alert that would hold this one back, and finds none, may send it now. -/
theorem spaced_of_sentWithin {user : String} {kind : Kind}
    (h : o.sentWithin user (kind.holders.map (·.word)) (.int kind.pause) "approvalId" (.int key) =
      .ok false) : ∀ x ∈ o.alerts key, Spaced x ⟨kind, user, o.clock⟩ := by
  obtain ⟨hours, hhours, h⟩ := Result.bind_eq_ok h
  obtain ⟨since, hsince, h⟩ := Result.bind_eq_ok h
  have hmicros : hours = kind.pause * Duration.hourMicros := by
    cases kind <;> exact (Except.ok.inj hhours).symm
  have hclock : (since.micros : Int) = o.clock.micros - hours := by
    unfold Moment.plus Moment.add? Moment.ofMicros? at hsince
    split at hsince
    · next later hlater =>
      cases hsince
      split at hlater
      · next hbounds =>
        cases hlater
        show ((o.clock.micros + -hours).toNat : Int) = _
        omega
      · cases hlater
    · cases hsince
  have hnone := Except.ok.inj h
  rw [sentSince_eq, List.any_eq_false] at hnone
  intro x hx huser hkind
  obtain ⟨n, hn, halert⟩ := List.mem_filterMap.mp hx
  obtain ⟨found, hfound, rfl⟩ := Option.map_eq_some_iff.mp halert
  have hword : (kind.holders.map (·.word)).contains n.type = true := by
    rw [List.contains_iff_mem, ← Kind.word_of_ofWord? hfound]
    exact List.mem_map_of_mem hkind
  -- The notification is of the right user and type, so it was sent too long ago.
  have hold := hnone n hn
  change n.user = user at huser
  rw [hword, beq_iff_eq.mpr huser, Bool.true_and, Bool.true_and, decide_eq_true_eq] at hold
  show (n.createdAt.micros : Int) + kind.pause * Duration.hourMicros < o.clock.micros
  omega

/-- The alerts are read off the notifications, whatever else these say. -/
theorem alerts_eq (o : Office) (key : Int) :
    o.alerts key = (o.notifications.rows.filter (·.isAbout key)).filterMap (·.alert?) := by
  unfold alerts about
  rw [List.filterMap_map]
  rfl

/-- Notifications that are no alerts add none. -/
theorem alerts_append (o : Office) {new : List Notification}
    (h : ∀ n ∈ new, Kind.ofWord? n.type = none) :
    alerts { o with notifications := ⟨o.notifications.rows ++ new⟩ } key = o.alerts key := by
  rw [alerts_eq, alerts_eq, List.filter_append, List.filterMap_append]
  have hnone : (new.filter (·.isAbout key)).filterMap (·.alert?) = [] := by
    refine List.filterMap_eq_nil_iff.mpr fun n hn => ?_
    unfold Notification.alert?
    rw [h n (List.mem_filter.mp hn).1]
    rfl
  rw [hnone, List.append_nil]

/-! ## What sends no alert -/

/-- No alert about the approval was sent in between. -/
abbrev Unalerted (key : Int) : Office → Office → Prop := Same fun o => o.alerts key

theorem unalerted_of_notifications {o' : Office} (h : o'.notifications = o.notifications) :
    Unalerted key o o' := by
  show o'.alerts key = o.alerts key
  rw [alerts_eq, alerts_eq, h]

/-- Automations send none. -/
instance : Automatic (Unalerted key) where
  changed _ _ _ _ := unalerted_of_notifications rfl
  added _ _ _ := unalerted_of_notifications rfl
  filled _ _ := unalerted_of_notifications rfl
  noticed o _ h := alerts_append o fun n hn => by rw [h n hn]; rfl
  logged _ _ := unalerted_of_notifications rfl
  called _ _ _ := unalerted_of_notifications rfl

instance : Reacting (Unalerted key) where
  noted _ _ := unalerted_of_notifications rfl

instance : Catalogued (Unalerted key) where
  saved _ _ _ := unalerted_of_notifications rfl
  rewrote _ _ _ _ := unalerted_of_notifications rfl
  erased _ _ _ := unalerted_of_notifications rfl

/-- Nor does a notice of another type. -/
theorem unalerted_notify {n : Notice} (user : Value) (h : Kind.ofWord? n.type = none) :
    Keeps (Unalerted key) (notify user n) := by
  unfold notify
  cases hmake : keepNotice n user with
  | error fault => exact Keeps.throw fault
  | ok make =>
    have hmade : (Task.ofResult (.ok make) : OfficeTask _) = pure make := rfl
    rw [hmade, pure_bind]
    refine Keeps.get_set (fun o => ?_) fun _ => .pure _
    refine alerts_append o fun m hm => ?_
    rw [List.mem_singleton.mp hm, type_of_keepNotice hmake, h]

/-- The notification that an alert becomes is an alert about its approval. -/
theorem alerts_kept (subject : Subject) (a : Approval) (kind : Kind) (user title text : String)
    (more : Fields) (now : Moment) (key : Int) :
    ((Message.kept ⟨user, kind.word, .text title, .text text, .text Message.queueLink,
      subject.pendingData a.pending ++ more⟩ now).filter (·.isAbout key)).filterMap (·.alert?) =
      if a.id = key then [⟨kind, user, now⟩] else [] := by
  let n : Notification :=
    { id := 0
      user := user
      type := kind.word
      title := title
      message := some text
      link := some Message.queueLink
      metadata := subject.pendingData a.pending ++ more
      createdAt := now }
  have habout : n.isAbout key = decide (a.id = key) := rfl
  have halert : n.alert? = some ⟨kind, user, now⟩ := by
    unfold Notification.alert?
    rw [kind.ofWord?_word]
    rfl
  show ([n].filter (·.isAbout key)).filterMap (·.alert?) = _
  rw [List.filter_singleton, habout]
  by_cases hkey : a.id = key
  · rw [if_pos hkey, decide_eq_true hkey, cond_true, List.filterMap_cons, halert]
    rfl
  · rw [if_neg hkey, decide_eq_false hkey, cond_false]
    rfl

end Office

namespace Site

variable {key : Int} {I : Site → Prop} {P : Alert → Prop} {s s' : Site} {c : Channels} {a : Approval}
  {actor : Option String} {T : Table Approval}

/-- No alert about the approval was sent in between. -/
abbrev Unalerted (key : Int) : Site → Site → Prop := Same fun s => s.office.alerts key

instance : Growing (Unalerted key) where
  lookedUp s boardId := congrArg (fun o : Office => o.alerts key) (lookedUp_office s boardId)
  added _ _ _ := rfl

instance : Revising (Unalerted key) where
  decided _ _ := rfl
  removed _ _ := rfl

theorem unalerted_within {α : Type} {task : OfficeTask α} (h : Keeps (Office.Unalerted key) task) :
    Keeps (Unalerted key) (within task) :=
  fun s => h s.office

theorem unalerted_tell (c : Channels) (item : Item) (kind : EventKind) (actor : Option String)
    (note : ApprovalNote) : Keeps (Unalerted key) (c.tell item kind actor note) :=
  (keeps_current item).bind fun _ => unalerted_within (Office.permits_tell c.listener _)

theorem unalerted_send (c : Channels) (item : Item) {messages : Subject → List Message}
    (h : ∀ s, ∀ m ∈ messages s, Kind.ofWord? m.notice.type = none) :
    Keeps (Unalerted key) (c.send item messages) := by
  refine .ite ((keeps_current item).bind fun item => Keeps.get.bind fun s => ?_) (.pure _)
  refine Keeps.forM _ fun m hm => (unalerted_within ?_).discard
  exact Office.unalerted_notify _ (h _ m hm)

theorem carries_unalerted (c : Channels) (item : Item) (actor : Option String) :
    Carries (Unalerted key) c item actor where
  tell kind note _ := unalerted_tell c item kind actor note
  send _ h := unalerted_send c item fun s m hm => Kind.ofWord?_ordinary (h s m hm)

theorem unalerted_allComplete (c : Channels) (item : Item) :
    Keeps (Unalerted key) (c.send item Subject.allComplete) := by
  refine unalerted_send c item fun s m hm => ?_
  rw [Message.notice_of_mem_toUser hm]
  rfl

/-- Requests and decisions send no alerts, -/
theorem unalerted_request (c : Channels) (itemId : Int) (actor : Option String) :
    Keeps (Unalerted key) (Approvals.request c itemId actor) :=
  keeps_request_of_carries (fun item => carries_unalerted c item actor) (unalerted_allComplete c) itemId

theorem unalerted_transition (c : Channels) (k : Int) (requested : Value)
    (actor comments : Option String) :
    Keeps (Unalerted key) (Approvals.transition c k requested actor comments) :=
  keeps_transition_of_carries (fun item => carries_unalerted c item actor)
    (fun item note => unalerted_tell c item _ actor note) (unalerted_allComplete c) k requested comments

/-- and neither does saving a workflow. -/
theorem unalerted_saveWorkflow (board : Board) (payload : Value) (actor : Option String) :
    Keeps (Unalerted key) (saveWorkflow board payload actor) := by
  refine (keeps_lookup (Office.reads_demand actor _ _)).bind fun _ => ?_
  refine (Keeps.ofResult _).bind fun w => Keeps.bind (unalerted_within ?_) fun _ => ?_
  · refine Keeps.modify fun o => Office.unalerted_of_notifications ?_
    split <;> rfl
  · exact Keeps.bind (fun _ => rfl) fun _ => .pure w

/-! ## What sends alerts -/

/-- Something that stays while alerts are sent. -/
class Lasting (I : Site → Prop) : Prop where
  alike : ∀ {s s' : Site}, s.Alike s' → s'.approvals = s.approvals → I s → I s'

instance : Lasting fun s => s.approvals = T where
  alike _ hsame h := hsame.trans h

/-- From a state with the property on, the alerts are prolonged by some that satisfy `P`, and the property
    stays. -/
def Watched (key : Int) (I : Site → Prop) (P : Alert → Prop) (s s' : Site) : Prop :=
  I s → I s' ∧ Prolongs P (s.office.alerts key) (s'.office.alerts key)

instance : Std.Refl (Watched key I P) := ⟨fun _ h => ⟨h, .refl _⟩⟩

instance : IsTrans Site (Watched key I P) where
  trans _ _ _ h h' hI :=
    ⟨(h' (h hI).1).1, (h hI).2.trans (h' (h hI).1).2⟩

theorem watched_of_unalerted (hI : I s → I s') (h : Unalerted key s s') : Watched key I P s s' := by
  intro hs
  have hsame : s'.office.alerts key = s.office.alerts key := h
  rw [hsame]
  exact ⟨hI hs, .refl _⟩

instance [Lasting I] : Curious (Watched key I P) where
  lookedUp s boardId :=
    watched_of_unalerted (Lasting.alike (Curious.lookedUp s boardId) (lookedUp_approvals s boardId))
      (Curious.lookedUp s boardId)

/-- An alert adds what it is to the alerts about its approval, if it gets through. -/
theorem alerts_send {kind : Kind} {user : String} {messages : Subject → List Message}
    (hmessages : ∀ subject, ∃ title text more,
      messages subject = subject.alert a.pending (some user) kind.word title text more)
    (c : Channels) (item : Item) (key : Int) (s : Site) :
    ((c.send item messages).after s).office.alerts key = s.office.alerts key ∨
      a.id = key ∧ ((c.send item messages).after s).office.alerts key =
        s.office.alerts key ++ [⟨kind, user, s.office.clock⟩] := by
  have htext : ∀ subject, ∀ m ∈ messages subject, m.notice.IsText := by
    intro subject m hm
    obtain ⟨title, text, more, hsame⟩ := hmessages subject
    rw [hsame] at hm
    exact Subject.isText_of_mem_toUser ⟨_, _, _, rfl, rfl, rfl⟩ hm
  unfold Office.alerts
  rw [about_send c item htext key s, List.filterMap_append]
  unfold Channels.told
  split
  · obtain ⟨title, text, more, hsame⟩ := hmessages
      (s.office.subjectOf ((s.office.items.get? item.id).getD item))
    rw [hsame]
    unfold Subject.alert Message.toUser
    simp only
    split
    · exact .inl (List.append_nil _)
    · rw [List.flatMap_singleton, Office.alerts_kept]
      split
      · next hkey => exact .inr ⟨hkey, rfl⟩
      · exact .inl (List.append_nil _)
  · exact .inl (List.append_nil _)

/-- An alert is sent if nothing holds it back, and so it is spaced from those in front of it. -/
theorem watched_hold [Lasting I] {β : Type} (kind : Kind) {user : String}
    {messages : Subject → List Message}
    (hmessages : ∀ subject, ∃ title text more,
      messages subject = subject.alert a.pending (some user) kind.word title text more)
    (hP : a.id = key → ∀ moment, P ⟨kind, user, moment⟩) (c : Channels) (item : Item) (x y : β) :
    Keeps (Watched key I P) (do
      if ← Alerts.sentWithin user (kind.holders.map (·.word)) kind.pause a.id then pure x
      else
        c.send item messages
        pure y) := by
  intro s
  rw [Task.after, Task.exec_bind, exec_sentWithin]
  cases hsent : s.office.sentWithin user (kind.holders.map (·.word)) (.int kind.pause) "approvalId"
      (.int a.id) with
  | error fault => exact Std.Refl.refl s
  | ok wasSent =>
    cases wasSent with
    | true => exact Std.Refl.refl s
    | false =>
      have hafter : (do c.send item messages; pure y : SiteTask β).after s =
          (c.send item messages).after s := Keeps.same_after_bind (g := id) fun _ => .pure _
      show Watched key I P s ((do c.send item messages; pure y : SiteTask β).after s)
      rw [hafter]
      intro hI
      have happrovals : Keeps (Same Site.approvals) (c.send item messages) := keeps_send c item messages
      refine ⟨Lasting.alike (alike_send c item messages s) (happrovals s) hI, ?_⟩
      rcases alerts_send hmessages c item key s with hsame | ⟨hkey, hsame⟩
      · rw [hsame]
        exact .refl _
      · rw [hsame]
        rw [hkey] at hsent
        exact .of_append (Office.spaced_of_sentWithin hsent) (hP hkey _)

/-- Who is addressed is the approver, who has a name. -/
theorem approver_of_addressee? {approver : String} {item : Item}
    (h : addressee? s a = some (approver, item)) :
    a.approver = some approver ∧ approver.isEmpty = false := by
  unfold addressee? at h
  rw [Option.bind_eq_bind, Option.bind_eq_some_iff] at h
  obtain ⟨found, hfound, h⟩ := h
  rw [Option.bind_eq_bind, Option.bind_eq_some_iff] at h
  obtain ⟨_, -, h⟩ := h
  split at h
  · cases h
  · next hname =>
    cases h
    exact ⟨hfound, Bool.eq_false_iff.mpr hname⟩

/-- The alerts of these kinds that may be sent to the approver satisfy `P`. -/
def Addresses (P : Alert → Prop) (key : Int) (a : Approval) (kind : Kind) : Prop :=
  ∀ approver : String, a.approver = some approver → approver.isEmpty = false → a.id = key →
    ∀ moment, P ⟨kind, approver, moment⟩

theorem watched_remind [Lasting I] (hP : Addresses P key a .reminder) (c : Channels) (now : Moment) :
    Keeps (Watched key I P) (Alerts.remind c now a) := by
  refine Keeps.get.bind fun s => ?_
  split
  · exact .pure _
  · next approver item haddressee =>
    obtain ⟨happrover, hname⟩ := approver_of_addressee? haddressee
    refine watched_hold .reminder (fun subject => ?_) (hP approver happrover hname) c item _ _
    rw [← happrover]
    exact ⟨_, _, _, rfl⟩

theorem watched_alert [Lasting I] (happroaching : Addresses P key a .approaching)
    (hpassed : Addresses P key a .passed) (c : Channels) (hoursBefore : Value) (now : Moment)
    (counts : DeadlineCounts) : Keeps (Watched key I P) (Alerts.alert c hoursBefore now counts a) := by
  refine Keeps.get.bind fun s => ?_
  split
  · exact .pure _
  · next approver item haddressee =>
    obtain ⟨happrover, hname⟩ := approver_of_addressee? haddressee
    refine (keeps_workflowOf _).bind fun w => ?_
    split
    · exact .pure _
    · refine (Keeps.ofResult _).bind fun deadline => .ite ?_ ?_
      · refine (Keeps.ofResult _).bind fun isNear => .ite (.pure _) ?_
        refine watched_hold .approaching (fun subject => ?_) (happroaching approver happrover hname) c
          item _ _
        rw [← happrover]
        exact ⟨_, _, _, rfl⟩
      · refine watched_hold .passed (fun subject => ?_) (hpassed approver happrover hname) c item _ _
        rw [← happrover]
        exact ⟨_, _, _, rfl⟩

/-- Who escalations of an approval go to, as the workflow of its board says now. -/
def escalationUser? (s : Site) (a : Approval) : Option String := do
  let item ← s.liveItemOf? a
  let w ← (s.workflow? item.boardId).toOption
  (w.configNamed? a.level).bind fun config => config.escalationUser.filter fun user => !user.isEmpty

theorem watched_escalate [Lasting I]
    (hP : ∀ s user, I s → s.escalationUser? a = some user → a.id = key →
      ∀ moment, P ⟨.escalation, user, moment⟩) (c : Channels) (now : Moment) :
    Keeps (Watched key I P) (Alerts.escalate c now a) := by
  refine Keeps.get_bind fun s => ?_
  cases hlive : s.liveItemOf? a with
  | none => exact Std.Refl.refl s
  | some item =>
    simp only
    intro hI
    rw [Task.after, Task.exec_bind, exec_workflowOf]
    have hlooked : Watched key I P s (s.lookedUp item.boardId) := Curious.lookedUp s item.boardId
    cases hw : s.workflow? item.boardId with
    | error fault => exact hlooked hI
    | ok w =>
      refine IsTrans.trans _ _ _ hlooked ((?_ : Keeps (Watched key I P) _) (s.lookedUp item.boardId)) hI
      split
      · next timeout user _ huser =>
        -- The user is found in the state in front, so what is known of this state tells who it is.
        have hfound : s.escalationUser? a = some user := by
          unfold escalationUser?
          rw [hlive]
          show (s.workflow? item.boardId).toOption.bind _ = _
          rw [hw]
          exact huser
        refine .ite (.pure _) ?_
        exact watched_hold .escalation (fun subject => ⟨_, _, _, rfl⟩) (hP s user hI hfound) c item _ _
      · exact .pure _

/-! ## Passes -/

section Passes

variable [Lasting I] (hT : ∀ s, I s → s.approvals = T)

include hT

theorem watched_sendReminders (hP : ∀ a ∈ T.rows, Addresses P key a .reminder) (c : Channels)
    (hours : Value) (now : Option Moment) :
    Keeps (Watched key I P) (Alerts.sendReminders c hours now) := by
  refine (keeps_valueOrSetting _ _ _).bind fun hours => keeps_now.bind fun clock => ?_
  refine (Keeps.ofResult _).bind fun limit => Keeps.get_bind fun s => ?_
  intro hI
  have hdue : ∀ a ∈ s.pendingRowsOf none (some limit), a ∈ T.rows := by
    intro a ha
    rw [← hT s hI]
    exact (mem_pendingRows.mp (List.mem_filter.mp ha).1).1
  have hpass : Keeps (Watched key I P) ((s.pendingRowsOf none (some limit)).mapM
      (Alerts.remind c (now.getD clock))) :=
    Keeps.mapM _ fun a ha => watched_remind (hP a (hdue a ha)) c _
  exact hpass.bind (fun sent => .pure _) s hI

theorem watched_sendDeadlineAlerts (happroaching : ∀ a ∈ T.rows, Addresses P key a .approaching)
    (hpassed : ∀ a ∈ T.rows, Addresses P key a .passed) (c : Channels) (hoursBefore : Value)
    (now : Option Moment) : Keeps (Watched key I P) (Alerts.sendDeadlineAlerts c hoursBefore now) := by
  refine (keeps_valueOrSetting _ _ _).bind fun hours => keeps_now.bind fun clock => ?_
  refine Keeps.get_bind fun s => ?_
  intro hI
  have hpending : ∀ a ∈ s.pendingRows, a ∈ T.rows := by
    intro a ha
    rw [← hT s hI]
    exact (mem_pendingRows.mp ha).1
  have hpass : Keeps (Watched key I P) (s.pendingRows.foldlM
      (Alerts.alert c hours (now.getD clock)) {}) :=
    Keeps.foldlM _ (fun counts a ha => watched_alert (happroaching a (hpending a ha))
      (hpassed a (hpending a ha)) c hours _ counts) _
  exact hpass s hI

theorem watched_sendEscalations
    (hP : ∀ a ∈ T.rows, ∀ s user, I s → s.escalationUser? a = some user → a.id = key →
      ∀ moment, P ⟨.escalation, user, moment⟩) (c : Channels) (now : Option Moment) :
    Keeps (Watched key I P) (Alerts.sendEscalations c now) := by
  refine keeps_now.bind fun clock => Keeps.get_bind fun s => ?_
  intro hI
  have hpending : ∀ a ∈ s.approvals.rows.filter fun a => a.status == .pending, a ∈ T.rows := by
    intro a ha
    rw [← hT s hI]
    exact (List.mem_filter.mp ha).1
  have hpass : Keeps (Watched key I P)
      ((s.approvals.rows.filter fun a => a.status == .pending).mapM
        (Alerts.escalate c (now.getD clock))) :=
    Keeps.mapM _ fun a ha => watched_escalate (hP a (hpending a ha)) c _
  exact hpass.bind (fun sent => .pure _) s hI

end Passes

end Site

/-! ## Operations -/

namespace Operation

open Site

variable {key : Int} {s : Site} {op : Operation}

/-- Does it write notifications by hand? -/
def WritesNotices : Operation → Prop
  | office op => op.IsNotice
  | _ => False

/-- Does it escalate approvals? -/
def Escalates : Operation → Prop
  | sendEscalations .. | runJob .. | runJobs .. | passDay => True
  | _ => False

/-- What an operation may send about the approval of a key: escalations if it escalates approvals, and
    other alerts to the approver. -/
def MaySend (op : Operation) (key : Int) (T : Table Approval) (y : Alert) : Prop :=
  if y.kind = .escalation then op.Escalates
  else ∃ a ∈ T.rows, a.id = key ∧ a.approver = some y.user ∧ y.user.isEmpty = false

/-- What is kept of the alerts about an approval while the approvals stay as they are in `T`. -/
abbrev Watches (op : Operation) (key : Int) (T : Table Approval) : Site → Site → Prop :=
  Watched key (fun s => s.approvals = T) (op.MaySend key T)

theorem addresses_maySend {T : Table Approval} {a : Approval} (ha : a ∈ T.rows) {kind : Kind}
    (hkind : kind ≠ .escalation) : Addresses (op.MaySend key T) key a kind := by
  intro approver happrover hname hkey moment
  unfold MaySend
  rw [if_neg hkind]
  exact ⟨a, ha, hkey, happrover, hname⟩

instance {T : Table Approval} {P : Alert → Prop} :
    Scheduled (Watched key (fun s => s.approvals = T) P) where
  planned _ _ := watched_of_unalerted id (Office.unalerted_of_notifications rfl)

theorem escalates_of_runsJobs (h : op.RunsJobs) : op.Escalates := by
  cases op with
  | runJob | runJobs | passDay => trivial
  | _ => exact absurd h id

/-- An operation that writes no approvals keeps the distances of alerts. -/
theorem watched_of_isQuiet {T : Table Approval} (hquiet : op.IsQuiet) (hnotices : ¬ op.WritesNotices) :
    Keeps (op.Watches key T) op.perform := by
  have hwithin {α : Type} {t : OfficeTask α} (h : Keeps (Office.Unalerted key) t) :
      Keeps (op.Watches key T) (within t) :=
    fun s => watched_of_unalerted id (h s.office)
  have hreminders (c : Channels) (hours : Value) (now : Option Moment) :
      Keeps (op.Watches key T) (Alerts.sendReminders c hours now) :=
    watched_sendReminders (fun _ h => h) (fun a ha => addresses_maySend ha (by decide)) c hours now
  have hdeadlines (c : Channels) (hoursBefore : Value) (now : Option Moment) :
      Keeps (op.Watches key T) (Alerts.sendDeadlineAlerts c hoursBefore now) :=
    watched_sendDeadlineAlerts (fun _ h => h) (fun a ha => addresses_maySend ha (by decide))
      (fun a ha => addresses_maySend ha (by decide)) c hoursBefore now
  have hescalations (hop : op.Escalates) (c : Channels) (now : Option Moment) :
      Keeps (op.Watches key T) (Alerts.sendEscalations c now) := by
    refine watched_sendEscalations (fun _ h => h) (fun a _ s user _ _ _ moment => ?_) c now
    unfold MaySend
    rw [if_pos rfl]
    exact hop
  refine keeps_of_parts hquiet
    { jobs := fun hruns => keeps_standard_of (hwithin (Office.permits_dailyPass none))
        (hescalations (escalates_of_runsJobs hruns)) hreminders hdeadlines
      reminders := fun c hours now _ => hreminders c hours now
      deadlines := fun c hoursBefore now _ => hdeadlines c hoursBefore now
      escalations := fun c now hop => hescalations (hop ▸ trivial) c now
      archived := fun item => hwithin (Office.keeps_archive item)
      restored := fun item => hwithin (Office.keeps_restore item)
      saved := fun board payload actor s => ?_
      forgotten := fun boardId s => ?_
      office := fun o ho => hwithin ?_ }
  · have happrovals : Keeps (Same Site.approvals) (Site.saveWorkflow board payload actor) :=
      keeps_saveWorkflow board payload actor
    exact watched_of_unalerted (happrovals s).trans (unalerted_saveWorkflow board payload actor s)
  · exact watched_of_unalerted id rfl
  · subst ho
    refine o.keeps_of_reacting (fun hnotice => absurd hnotice hnotices) (fun _ _ => ?_) fun _ _ => ?_
    · exact Office.unalerted_of_notifications rfl
    · exact Office.unalerted_of_notifications rfl

/-- In every operation, what is sent about an approval keeps its distances. -/
theorem prolongs_alerts (key : Int) (s : Site) (hnotices : ¬ op.WritesNotices) :
    Prolongs (fun y => op.IsQuiet ∧ op.MaySend key s.approvals y) (s.office.alerts key)
      ((op.after s).office.alerts key) := by
  by_cases hquiet : op.IsQuiet
  · have hwatched : op.Watches key s.approvals s (op.after s) := watched_of_isQuiet hquiet hnotices s
    exact (hwatched rfl).2.imp fun y hy => ⟨hquiet, hy⟩
  · -- Requests, decisions and deletions send no alerts.
    have hsame : Unalerted key s (op.after s) := by
      cases op with
      | request c itemId actor => exact (unalerted_request c itemId actor).discard s
      | transition c k requested actor comments =>
        exact (unalerted_transition c k requested actor comments).discard s
      | delete k actor => exact keeps_delete k actor s
      | _ => exact absurd trivial hquiet
    rw [show (op.after s).office.alerts key = s.office.alerts key from hsame]
    exact .refl _

end Operation

/-- Along a run too. -/
theorem Site.prolongs_run {key : Int} {s : Site} {ops : List Operation}
    (hops : ∀ op ∈ ops, ¬ op.WritesNotices) :
    Prolongs (fun _ => True) (s.office.alerts key) ((s.run ops).office.alerts key) := by
  induction ops generalizing s with
  | nil => exact .refl _
  | cons op rest ih =>
    have hfirst := op.prolongs_alerts key s (hops op (List.mem_cons_self ..))
    refine (hfirst.imp fun _ _ => trivial).trans ?_
    exact ih fun op' hop' => hops op' (List.mem_cons_of_mem _ hop')

end Signoff
