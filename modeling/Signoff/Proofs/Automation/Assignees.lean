import Signoff.Proofs.Item.Snapshot
import Signoff.Proofs.Office.Notices
import Mathlib.Data.List.Induction

/-! # Telling assignees

    The cells of people on an item say who is to be told. Everybody is told once:

    * `NamesUser`: an entry of a snapshot names a user.
    * `Office.mentions`: the users that the cells of people name, as often as they do.
    * `FirstSeen`: a list without repetitions, in the order of the first mentions.
    * `exec_notifyMany`: users that differ get one notification each.
    * `assignees_told`: the assignees of an item get one notification each.
-/

open Signoff.Task (Reads)

namespace Signoff

/-! ## Texts that are not empty -/

namespace NumberText

theorem positional_ne_empty (digits : List Char) (point : Int) : positional digits point ≠ "" := by
  unfold positional
  split
  · simp [String.append_eq_empty_iff]
  · simp only
    split <;> simp [String.append_eq_empty_iff]

theorem decimalText_ne_empty (top : Int) (whole : Bool) (d : Decimal) :
    decimalText top whole d ≠ "" := by
  unfold decimalText
  simp only
  split
  · exact positional_ne_empty _ _
  · -- The exponent is never empty.
    unfold exponentText
    split <;> simp [String.append_eq_empty_iff]

theorem floatText_ne_empty (x : Float) : floatText x ≠ "" := by
  unfold floatText
  split
  · split
    · decide
    · split <;> decide
  · simp only
    split
    · simp [String.append_eq_empty_iff]
    · simp [String.append_eq_empty_iff, decimalText_ne_empty]

theorem intText_ne_empty (n : Int) : intText n ≠ "" := by
  have hdigits : natText n.natAbs ≠ "" := by
    intro hempty
    have hpos : 0 < (Nat.toDigits 10 n.natAbs).length := Nat.length_toDigits_pos
    rw [natText, String.ofList_eq_empty_iff] at hempty
    rw [hempty] at hpos
    exact absurd hpos (Nat.lt_irrefl 0)
  unfold intText
  split
  · simp [String.append_eq_empty_iff]
  · exact hdigits

end NumberText

/-- What counts as true is shown as some text. -/
theorem Value.display_ne_empty {v : Value} (h : v.truthy = true) : v.display ≠ "" := by
  cases v with
  | null => cases h
  | bool b =>
    cases b with
    | false => cases h
    | true => decide
  | int n => exact NumberText.intText_ne_empty n
  | float x => exact NumberText.floatText_ne_empty x
  | text s =>
    intro hempty
    have hs : s = "" := hempty
    rw [hs] at h
    cases h
  | list vs => simp [display, quoted, String.append_eq_empty_iff]
  | object fields => simp [display, quoted, String.append_eq_empty_iff]

/-! ## Who is named -/

/-- What of a person tells who it is: the `id` of an object, or else its `userId`. Anything that is no
    object does so itself. -/
inductive Identifies : Value → Value → Prop where
  | itself {person : Value} (h : ∀ fields, person ≠ .object fields) : Identifies person person
  | id {fields : Fields} (h : (Fields.get fields "id").truthy = true) :
    Identifies (.object fields) (Fields.get fields "id")
  | userId {fields : Fields} (h : (Fields.get fields "id").truthy = false) :
    Identifies (.object fields) (Fields.get fields "userId")

/-- An entry of a snapshot names a user: it is a person or a list with one, who is told by something that
    counts as true. The user is called like the text of it. -/
inductive NamesUser : Value → String → Prop where
  | alone {person v : Value} (hone : ∀ vs, person ≠ .list vs) (hwho : Identifies person v)
      (htrue : v.truthy = true) : NamesUser person v.display
  | among {vs : List Value} {person v : Value} (hmem : person ∈ vs) (hwho : Identifies person v)
      (htrue : v.truthy = true) : NamesUser (.list vs) v.display

/-- What tells who a person is. -/
def identity (person : Value) : Value :=
  match person with
  | .object fields => (Fields.get fields "id").orElse (Fields.get fields "userId")
  | v => v

theorem identifies_iff {person v : Value} : Identifies person v ↔ v = identity person := by
  constructor
  · rintro (h | h | h)
    · unfold identity
      split
      · next fields => exact absurd rfl (h fields)
      · rfl
    · simp [identity, Value.orElse, h]
    · simp [identity, Value.orElse, h]
  · rintro rfl
    cases person with
    | object fields =>
      cases hid : (Fields.get fields "id").truthy with
      | true =>
        have hsame : identity (.object fields) = Fields.get fields "id" := by
          simp [identity, Value.orElse, hid]
        rw [hsame]
        exact .id hid
      | false =>
        have hsame : identity (.object fields) = Fields.get fields "userId" := by
          simp [identity, Value.orElse, hid]
        rw [hsame]
        exact .userId hid
    | _ => exact .itself nofun

/-- Persons that are not told by anything are left out, everybody else is called by the text of it. -/
theorem peopleOf_eq (entry : Value) :
    peopleOf entry = (ActionConfig.several entry).filterMap fun person =>
      if (identity person).truthy then some (identity person).display else none := by
  unfold peopleOf
  split
  · next hmissing =>
    -- Nothing and the empty text stand for nobody also without a rule of their own.
    cases entry with
    | null => rfl
    | text s =>
      have hs : s.isEmpty = true := hmissing
      simp [ActionConfig.several, identity, Value.truthy, hs]
    | _ => cases hmissing
  · rfl

/-- The users of an entry are those that it names. -/
theorem mem_peopleOf {entry : Value} {user : String} : user ∈ peopleOf entry ↔ NamesUser entry user := by
  have hmem : user ∈ peopleOf entry ↔ ∃ person ∈ ActionConfig.several entry,
      (identity person).truthy = true ∧ (identity person).display = user := by
    simp [peopleOf_eq, List.mem_filterMap]
  rw [hmem]
  constructor
  · rintro ⟨person, hperson, htrue, rfl⟩
    have hwho : Identifies person (identity person) := identifies_iff.mpr rfl
    cases entry with
    | list vs => exact .among hperson hwho htrue
    | _ =>
      obtain rfl := List.mem_singleton.mp hperson
      exact .alone nofun hwho htrue
  · rintro (⟨hone, hwho, htrue⟩ | ⟨hperson, hwho, htrue⟩)
    · rw [identifies_iff] at hwho
      subst hwho
      refine ⟨entry, ?_, htrue, rfl⟩
      unfold ActionConfig.several
      split
      · next vs => exact absurd rfl (hone vs)
      · exact List.mem_singleton_self _
    · rw [identifies_iff] at hwho
      subst hwho
      exact ⟨_, hperson, htrue, rfl⟩

theorem ne_empty_of_mem_peopleOf {entry : Value} {user : String} (h : user ∈ peopleOf entry) :
    user ≠ "" := by
  rcases mem_peopleOf.mp h with ⟨-, -, htrue⟩ | ⟨-, -, htrue⟩
  · exact Value.display_ne_empty htrue
  · exact Value.display_ne_empty htrue

/-! ## In which order -/

/-- Everybody of a list once, in the order in which they are seen first. -/
structure FirstSeen (seen users : List String) : Prop where
  nodup : users.Nodup
  mem_iff : ∀ user, user ∈ users ↔ user ∈ seen
  ordered : users.Pairwise fun a b => seen.idxOf a < seen.idxOf b

/-- One more user is seen: those who were seen before keep their place, and somebody new comes last. -/
theorem FirstSeen.concat {seen users : List String} (h : FirstSeen seen users) (user : String) :
    FirstSeen (seen ++ [user]) (if users.contains user then users else users ++ [user]) := by
  have hplace : ∀ a ∈ users, (seen ++ [user]).idxOf a = seen.idxOf a := by
    intro a ha
    exact List.idxOf_append_of_mem ((h.mem_iff a).mp ha)
  have hordered : users.Pairwise fun a b =>
      (seen ++ [user]).idxOf a < (seen ++ [user]).idxOf b := by
    refine h.ordered.imp_of_mem ?_
    intro a b ha hb hlt
    rwa [hplace a ha, hplace b hb]
  by_cases hold : user ∈ users
  · rw [if_pos (List.contains_iff_mem.mpr hold)]
    refine ⟨h.nodup, fun a => ?_, hordered⟩
    rw [List.mem_append, List.mem_singleton, h.mem_iff a]
    constructor
    · exact .inl
    · rintro (ha | rfl)
      · exact ha
      · exact (h.mem_iff a).mp hold
  · rw [if_neg (fun hcontains => hold (List.contains_iff_mem.mp hcontains))]
    have hnew : user ∉ seen := fun hseen => hold ((h.mem_iff user).mpr hseen)
    refine ⟨?_, fun a => ?_, ?_⟩
    · exact List.nodup_append.mpr ⟨h.nodup, List.nodup_singleton user, by
        rintro a ha b hb rfl
        exact hold (List.mem_singleton.mp hb ▸ ha)⟩
    · simp only [List.mem_append, List.mem_singleton, h.mem_iff a]
    · refine List.pairwise_append.mpr ⟨hordered, List.pairwise_singleton .., ?_⟩
      intro a ha b hb
      obtain rfl := List.mem_singleton.mp hb
      -- The new one is found behind everything that was seen.
      rw [hplace a ha, List.idxOf_append_of_notMem hnew]
      have hlt : seen.idxOf a < seen.length := List.idxOf_lt_length_iff.mpr ((h.mem_iff a).mp ha)
      omega

/-- Taking in one user after another gives everybody once. -/
theorem firstSeen_foldl (seen : List String) :
    FirstSeen seen
      (seen.foldl (fun users user => if users.contains user then users else users ++ [user]) []) := by
  induction seen using List.reverseRecOn with
  | nil => exact ⟨List.nodup_nil, fun user => Iff.rfl, List.Pairwise.nil⟩
  | append_singleton seen user ih =>
    rw [List.foldl_concat]
    exact ih.concat user

namespace Office

/-- The columns of people on a board, by position. -/
def peopleColumns (o : Office) (boardId : Int) : List Column :=
  (o.columnsOf boardId).filter fun c => c.type == "people"

/-- The users that the cells of people on an item name, column by column, as often as they do. -/
def mentions (o : Office) (item : Item) : List String :=
  (o.peopleColumns item.boardId).flatMap fun c =>
    peopleOf ((o.snapshotOf item).get (NumberText.intText c.id))

/-- The assignees of an item are the users that are mentioned. -/
theorem firstSeen_assigneesOf (o : Office) (item : Item) :
    FirstSeen (o.mentions item) (o.assigneesOf item) :=
  firstSeen_foldl (o.mentions item)

theorem mem_mentions {o : Office} {item : Item} {user : String} :
    user ∈ o.mentions item ↔ ∃ c ∈ o.columnsOf item.boardId, c.type = "people" ∧
      NamesUser ((o.snapshotOf item).get (NumberText.intText c.id)) user := by
  simp only [mentions, peopleColumns, List.mem_flatMap, List.mem_filter, beq_iff_eq, mem_peopleOf,
    and_assoc]

theorem ne_empty_of_mem_mentions {o : Office} {item : Item} {user : String}
    (h : user ∈ o.mentions item) : user ≠ "" := by
  obtain ⟨c, -, hc⟩ := List.mem_flatMap.mp h
  exact ne_empty_of_mem_peopleOf hc

/-! ## One notification for each -/

/-- What is kept of a notice differs from user to user in the user only, and so do faults. -/
theorem keepNotice_text_cases (n : Notice) :
    (∃ fault, ∀ user, keepNotice n (.text user) = .error fault) ∨
      ∃ title message link, ∀ user, keepNotice n (.text user) = .ok fun id now =>
        { id, user, type := n.type, title, message, link, metadata := n.metadata,
          createdAt := now } := by
  have hkeep (user : String) : keepNotice n (.text user) = (do
      let title? ← TextColumn.keep 3 n.title
      let message ← TextColumn.keep 4 (if n.message.isNull then .text "" else n.message)
      let link ← TextColumn.keep 5 n.link
      let title ← TextColumn.filled "notifications.title" title?
      pure fun id now =>
        { id, user, type := n.type, title, message, link, metadata := n.metadata,
          createdAt := now }) := rfl
  simp only [hkeep]
  -- Nothing that can fail depends on the user.
  cases TextColumn.keep 3 n.title with
  | error fault => exact .inl ⟨fault, fun user => rfl⟩
  | ok title? =>
    cases TextColumn.keep 4 (if n.message.isNull then .text "" else n.message) with
    | error fault => exact .inl ⟨fault, fun user => rfl⟩
    | ok message =>
      cases TextColumn.keep 5 n.link with
      | error fault => exact .inl ⟨fault, fun user => rfl⟩
      | ok link =>
        simp only [Result.ok_bind]
        cases TextColumn.filled "notifications.title" title? with
        | error fault => exact .inl ⟨fault, fun user => rfl⟩
        | ok title => exact .inr ⟨title, message, link, fun user => rfl⟩

/-- Users that differ are taken as they are, -/
theorem distinctUsers_texts (seen : List String) {users : List String} (hnodup : users.Nodup)
    (hnew : ∀ user ∈ users, user ∉ seen) (hfilled : ∀ user ∈ users, user ≠ "") :
    distinctUsers (seen.map .text) (users.map .text) =
      .ok ((seen.reverse ++ users).map .text) := by
  induction users generalizing seen with
  | nil => simp [distinctUsers]
  | cons user rest ih =>
    obtain ⟨huser, hrest⟩ := List.nodup_cons.mp hnodup
    have htrue : (Value.text user).truthy = true := by
      simp [Value.truthy, hfilled user (List.mem_cons_self ..)]
    have hunseen : (seen.map Value.text).any (Value.text user).looseEq = false := by
      simp only [List.any_map, List.any_eq_false, Function.comp_apply]
      intro other hother hequal
      cases Value.eq_of_looseEq_text hequal
      exact hnew _ (List.mem_cons_self ..) hother
    have hnext := ih (user :: seen) hrest (fun other hother hmem => by
      rcases List.mem_cons.mp hmem with rfl | hmem
      · exact huser hother
      · exact hnew other (List.mem_cons_of_mem _ hother) hmem)
      fun other hother => hfilled other (List.mem_cons_of_mem _ hother)
    rw [List.map_cons, distinctUsers, htrue, hunseen]
    simpa [Value.isHashable] using hnext

/-- and what is made for each of them is added. -/
theorem exec_notifyMany_of_makers {users distinct : List Value} {n : Notice}
    {makers : List (Int → Moment → Notification)} (hdistinct : distinctUsers [] users = .ok distinct)
    (hmakers : distinct.mapM (keepNotice n) = .ok makers) (o : Office) :
    ∃ new, (notifyMany users n).exec o =
        (.ok new, { o with notifications := ⟨o.notifications.rows ++ new⟩ }) ∧
      List.Forall₂ (fun make m => ∃ id, m = make id o.clock) makers new := by
  obtain ⟨new, hnew, hmade⟩ := forall₂_foldl_add makers o.clock o.notifications
  refine ⟨new, ?_, hmade⟩
  have hbehind : new =
      (makers.foldl (fun table make => table.add fun id => make id o.clock)
        o.notifications).rows.drop o.notifications.rows.length := by
    rw [hnew, List.drop_left]
  unfold notifyMany
  rw [hdistinct, Reads.exec_bind (.ofResult _), Task.answer_ofResult]
  simp only
  rw [hmakers, Reads.exec_bind (.ofResult _), Task.answer_ofResult, ← hnew]
  conv_rhs => rw [hbehind]
  rfl

/-- Users that differ get one notification each. Otherwise there is a fault, whoever is to be told. -/
theorem exec_notifyMany {users : List String} (hnodup : users.Nodup)
    (hfilled : ∀ user ∈ users, user ≠ "") (n : Notice) (o : Office) :
    (∃ fault, (∀ user, keepNotice n (.text user) = .error fault) ∧
      (notifyMany (users.map .text) n).exec o = (.error fault, o)) ∨
    ∃ new, (notifyMany (users.map .text) n).exec o =
        (.ok new, { o with notifications := ⟨o.notifications.rows ++ new⟩ }) ∧
      new.map (·.user) = users ∧ ∀ m ∈ new, m.type = n.type ∧ m.metadata = n.metadata := by
  have hdistinct : distinctUsers [] (users.map .text) = .ok (users.map .text) :=
    distinctUsers_texts [] hnodup (fun _ _ => List.not_mem_nil) hfilled
  rcases keepNotice_text_cases n with ⟨fault, hfault⟩ | ⟨title, message, link, hkept⟩
  · cases users with
    | nil =>
      obtain ⟨new, hexec, hmade⟩ := exec_notifyMany_of_makers hdistinct (n := n) rfl o
      cases hmade
      exact .inr ⟨[], hexec, rfl, nofun⟩
    | cons user rest =>
      refine .inl ⟨fault, hfault, ?_⟩
      unfold notifyMany
      rw [hdistinct, Reads.exec_bind (.ofResult _), Task.answer_ofResult, List.map_cons]
      simp only
      rw [List.mapM_cons, hfault user, Result.error_bind]
      rfl
  · let make (user : String) (id : Int) (now : Moment) : Notification :=
      { id, user, type := n.type, title, message, link, metadata := n.metadata, createdAt := now }
    have hmakers : (users.map Value.text).mapM (keepNotice n) = .ok (users.map make) := by
      have hpure : keepNotice n ∘ Value.text = fun user => pure (make user) := funext hkept
      rw [List.mapM_map, hpure, List.mapM_pure]
      rfl
    obtain ⟨new, hexec, hmade⟩ := exec_notifyMany_of_makers hdistinct hmakers o
    refine .inr ⟨new, hexec, ?_⟩
    rw [List.forall₂_map_left_iff] at hmade
    clear hexec hmakers hdistinct hnodup hfilled
    induction hmade with
    | nil => exact ⟨rfl, nofun⟩
    | @cons user m rest new hhead _ ih =>
      obtain ⟨id, rfl⟩ := hhead
      obtain ⟨husers, hall⟩ := ih
      exact ⟨congrArg (user :: ·) husers, List.forall_mem_cons.mpr ⟨⟨rfl, rfl⟩, hall⟩⟩

end Office

namespace Action

open Office ActionConfig

/-- What the configuration tells is text, and so is the link, if it gives one. -/
structure Wordable (config : Value) : Prop where
  title : ∃ title, need config "title" = .ok (.text title)
  message : ∃ message, need config "message" = .ok (.text message)
  link : may config "link" = .null ∨ ∃ link, may config "link" = .text link

/-- What the configuration of a notification adds to its texts. -/
def noticeOf (item : Item) (automation : Option Int) (config title message : Value) : Notice where
  type := "automation"
  title := title
  message := message
  link := (may config "link").orElse (.text ("/boards/" ++ NumberText.intText item.boardId ++ "/items/"
    ++ NumberText.intText item.id))
  metadata := [("itemId", .int item.id), ("boardId", .int item.boardId),
    ("automationId", .ofInt? automation)]

theorem tellUsers_eq (item : Item) (config : Value) (automation : Option Int) (users : List Value) :
    tellUsers item config automation users = (do
      let title ← Task.ofResult (need config "title")
      let message ← Task.ofResult (need config "message")
      discard (notifyMany users (noticeOf item automation config title message))) := rfl

/-- A text is told with a link that is a text. -/
theorem isText_noticeOf {config : Value} (h : Wordable config) (item : Item) (automation : Option Int)
    (title message : String) :
    (noticeOf item automation config (.text title) (.text message)).IsText := by
  have hlink (place : String) : ∃ link, (may config "link").orElse (.text place) = .text link := by
    rcases h.link with hnull | ⟨link, hlink⟩
    · rw [hnull]
      exact ⟨place, rfl⟩
    · rw [hlink]
      unfold Value.orElse
      split
      · exact ⟨link, rfl⟩
      · exact ⟨place, rfl⟩
  obtain ⟨link, hlink⟩ := hlink _
  exact ⟨title, message, link, rfl, rfl, hlink⟩

/-- Users that differ are told once each. Only the configuration can be at fault. -/
theorem exec_tellUsers {users : List String} (hnodup : users.Nodup)
    (hfilled : ∀ user ∈ users, user ≠ "") (item : Item) (config : Value) (automation : Option Int)
    (o : Office) :
    (¬ Wordable config ∧
      ∃ fault, (tellUsers item config automation (users.map .text)).exec o = (.error fault, o)) ∨
    ∃ new, (tellUsers item config automation (users.map .text)).exec o =
        (.ok (), { o with notifications := ⟨o.notifications.rows ++ new⟩ }) ∧
      new.map (·.user) = users ∧ ∀ m ∈ new, m.type = "automation" := by
  rw [tellUsers_eq, Reads.exec_bind (.ofResult _), Task.answer_ofResult]
  cases htitle : need config "title" with
  | error fault =>
    refine .inl ⟨fun hwordable => ?_, fault, rfl⟩
    obtain ⟨title, hgiven⟩ := hwordable.title
    rw [htitle] at hgiven
    cases hgiven
  | ok title =>
    simp only
    rw [Reads.exec_bind (.ofResult _), Task.answer_ofResult]
    cases hmessage : need config "message" with
    | error fault =>
      refine .inl ⟨fun hwordable => ?_, fault, rfl⟩
      obtain ⟨message, hgiven⟩ := hwordable.message
      rw [hmessage] at hgiven
      cases hgiven
    | ok message =>
      simp only
      rw [Task.exec_discard]
      rcases exec_notifyMany hnodup hfilled (noticeOf item automation config title message) o with
        ⟨fault, hfault, hexec⟩ | ⟨new, hexec, husers, hall⟩
      · rw [hexec]
        refine .inl ⟨fun hwordable => ?_, fault, rfl⟩
        -- Texts are always kept.
        obtain ⟨title, hgiven⟩ := hwordable.title
        obtain ⟨message, hgiven'⟩ := hwordable.message
        cases htitle.symm.trans hgiven
        cases hmessage.symm.trans hgiven'
        obtain ⟨make, hmake, -⟩ :=
          keepNotice_of_isText (isText_noticeOf hwordable item automation title message) ""
        cases (hfault "").symm.trans hmake
      · rw [hexec]
        exact .inr ⟨new, rfl, husers, fun m hm => (hall m hm).1⟩

/-! ## The assignees -/

/-- The action on an item that tells its assignees. -/
theorem execute_notifyAssignees {o : Office} {event : Event} {item : Item}
    (hitem : (requireItem event.itemId true).answer o = .ok item) (config : Value)
    (automation : Option Int) :
    (execute (.text "notify_assignees") config event automation).exec o =
      if o.assigneesOf item = [] then (.ok (), o)
      else (tellUsers item config automation ((o.assigneesOf item).map .text)).exec o := by
  have hkind : kindOf (.text "notify_assignees") = .ok .notifyAssignees := rfl
  unfold execute
  rw [hkind, Reads.exec_bind (.ofResult _), Task.answer_ofResult]
  simp only
  rw [(reads_requireItem event.itemId true).exec_bind, hitem]
  show (if (o.assigneesOf item).isEmpty then (pure () : OfficeTask Unit)
    else tellUsers item config automation ((o.assigneesOf item).map .text)).exec o = _
  cases o.assigneesOf item with
  | nil => rfl
  | cons user rest => rfl

/-- The action that tells the assignees of an item. If it returns, there is one more notification for
    each user whom an entry of a column of people on the board of the item names, and for nobody else, in
    the order in which they are named first. Nothing else is written. If there is nobody, it returns
    whatever it was to tell. And no entry keeps it from returning: only what is told can be at fault, and
    then nobody is told. -/
theorem assignees_told {o : Office} {event : Event} {item : Item}
    (hitem : (requireItem event.itemId true).answer o = .ok item) (config : Value)
    (automation : Option Int) :
    (∀ o', (execute (.text "notify_assignees") config event automation).exec o = (.ok (), o') →
      ∃ new, o' = { o with notifications := ⟨o.notifications.rows ++ new⟩ } ∧
        (∀ m ∈ new, m.type = "automation") ∧ (new.map (·.user)).Nodup ∧
        (∀ user, user ∈ new.map (·.user) ↔ ∃ c ∈ o.columnsOf item.boardId, c.type = "people" ∧
          NamesUser ((o.snapshotOf item).get (NumberText.intText c.id)) user) ∧
        (new.map (·.user)).Pairwise fun a b =>
          (o.mentions item).idxOf a < (o.mentions item).idxOf b) ∧
    (o.mentions item = [] →
      (execute (.text "notify_assignees") config event automation).exec o = (.ok (), o)) ∧
    ∀ fault o', (execute (.text "notify_assignees") config event automation).exec o =
      (.error fault, o') → ¬ Wordable config ∧ o' = o := by
  have hseen := firstSeen_assigneesOf o item
  have hfilled : ∀ user ∈ o.assigneesOf item, user ≠ "" := fun user huser =>
    ne_empty_of_mem_mentions ((hseen.mem_iff user).mp huser)
  have hexecute := execute_notifyAssignees hitem config automation
  have htell := exec_tellUsers hseen.nodup hfilled item config automation o
  rw [hexecute]
  by_cases hnobody : o.assigneesOf item = []
  · rw [if_pos hnobody]
    refine ⟨?_, fun _ => rfl, nofun⟩
    rintro o' ⟨⟩
    refine ⟨[], by simp, nofun, List.nodup_nil, fun user => ?_, List.Pairwise.nil⟩
    rw [← mem_mentions, ← hseen.mem_iff user, hnobody]
    exact Iff.rfl
  · rw [if_neg hnobody]
    refine ⟨fun o' hreturns => ?_, fun hnone => ?_, fun fault o' hfails => ?_⟩
    · rcases htell with ⟨-, fault, hexec⟩ | ⟨new, hexec, husers, htype⟩
      · cases hexec.symm.trans hreturns
      · cases hexec.symm.trans hreturns
        rw [← husers] at hseen
        exact ⟨new, rfl, htype, hseen.nodup, fun user => (hseen.mem_iff user).trans mem_mentions,
          hseen.ordered⟩
    · -- Without a mention there is no assignee.
      refine absurd (List.eq_nil_iff_forall_not_mem.mpr fun user huser => ?_) hnobody
      have hmention := (hseen.mem_iff user).mp huser
      rw [hnone] at hmention
      cases hmention
    · rcases htell with ⟨hnot, fault', hexec⟩ | ⟨new, hexec, -, -⟩
      · cases hexec.symm.trans hfails
        exact ⟨hnot, rfl⟩
      · cases hexec.symm.trans hfails

/-- An item with two columns of people, a list and an object. A is on both of them. -/
def staffed : Office where
  clock := ⟨0⟩
  settings := []
  boards := ⟨[⟨1, 1, "Invoices", ⟨0⟩⟩]⟩
  columns := ⟨[⟨1, 1, "Owner", "people", 0⟩, ⟨2, 1, "Total", "number", 1⟩, ⟨3, 1, "Helper", "people", 2⟩]⟩
  items := ⟨[⟨1, 1, "Invoice #1", some "Draft", "creator", ⟨0⟩, none⟩]⟩
  cells := ⟨[⟨1, 1, 1, .list [.text "B", .object [("userId", .text "A")], .int 7, .null]⟩,
    ⟨2, 1, 2, .int 9⟩, ⟨3, 1, 3, .object [("id", .text "A")]⟩]⟩

/-- The action returns there, and A is told, once. -/
theorem assignees_told_staffed :
    let item : Item := ⟨1, 1, "Invoice #1", some "Draft", "creator", ⟨0⟩, none⟩
    let event : Event := { itemId := 1, boardId := 1, user := none, kind := .itemUpdated }
    let config : Value := .object [("title", .text "Late"), ("message", .text "Please look")]
    (requireItem event.itemId true).answer staffed = .ok item ∧
    ∃ new, (execute (.text "notify_assignees") config event none).after staffed =
        { staffed with notifications := ⟨staffed.notifications.rows ++ new⟩ } ∧
      (new.map (·.user)).Nodup ∧ "A" ∈ new.map (·.user) := by
  intro item event config
  have hitem : (requireItem event.itemId true).answer staffed = .ok item := rfl
  have hwordable : Wordable config := ⟨⟨"Late", rfl⟩, ⟨"Please look", rfl⟩, .inl rfl⟩
  obtain ⟨htold, -, hfault⟩ := assignees_told hitem config none
  refine ⟨hitem, ?_⟩
  rcases hexec : (execute (.text "notify_assignees") config event none).exec staffed with ⟨fault | _, o'⟩
  · exact absurd hwordable (hfault fault o' hexec).1
  · obtain ⟨new, hnew, -, hnodup, hmem, -⟩ := htold o' hexec
    have hafter : (execute (.text "notify_assignees") config event none).after staffed = o' :=
      congrArg Prod.snd hexec
    refine ⟨new, hafter.trans hnew, hnodup, (hmem "A").mpr ⟨⟨3, 1, "Helper", "people", 2⟩, ?_, rfl, ?_⟩⟩
    · exact List.mem_mergeSort.mpr (by simp [staffed, item])
    · have hentry : (staffed.snapshotOf item).get (NumberText.intText 3) =
          .object [("id", .text "A")] := by
        with_unfolding_all rfl
      rw [hentry]
      have hwho : Identifies (.object [("id", .text "A")]) (.text "A") := .id rfl
      have hone : ∀ vs, Value.object [("id", .text "A")] ≠ .list vs := nofun
      exact .alone hone hwho rfl

end Action
end Signoff
