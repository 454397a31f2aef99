import Signoff.Proofs.Automation.Aiming

/-! # The daily pass

    A daily pass takes the boards that test dates one after another, and shows the
    items that lie on a board at its turn to the automations of the board. What
    these do is seen by the boards behind:

    * `Office.Dated`: the boards that have a turn.
    * `Office.Shifted`: where the items lie behind some showings.
    * `Automations.Shown`: items are shown one after another, each as it is then.
      `shifted_react` is the step, and `Shown.shifted` the run.
    * `Automations.Rounds`: which items are shown, and why. `Rounds.turn` adds the
      turn of a board.
    * `dailyPass_shows`: a daily pass is such a round, and counts it.
-/

open Signoff.Task (Keeps Reads)

namespace Signoff

namespace Office

/-- An active automation of the board tests a date. -/
def Dated (o : Office) (boardId : Int) : Prop :=
  ∃ a ∈ o.automations.rows, a.isActive = true ∧ a.boardId = boardId ∧ a.hasDateTrigger = .ok true

/-- An active automation of the board puts items on the other one. -/
def Aims (o : Office) (boardId target : Int) : Prop :=
  ∃ a ∈ o.automations.rows, a.isActive = true ∧ a.boardId = boardId ∧ a.Aims target

theorem aims_congr {o o' : Office} (h : o'.automations = o.automations) : o'.Aims = o.Aims := by
  unfold Aims
  rw [h]

/-- The item lies on the board, and is not archived. -/
def Lies (o : Office) (boardId itemId : Int) : Prop := ∃ i ∈ o.itemsOf boardId, i.id = itemId

/-- The items that lie on a board, each with the board. -/
def placesOf (o : Office) (boardId : Int) : List (Int × Int) :=
  (o.itemsOf boardId).map fun i => (boardId, i.id)

theorem mem_placesOf {o : Office} {boardId : Int} {place : Int × Int} :
    place ∈ o.placesOf boardId ↔ place.1 = boardId ∧ o.Lies boardId place.2 := by
  unfold placesOf Lies
  rw [List.mem_map]
  constructor
  · rintro ⟨i, hi, rfl⟩
    exact ⟨rfl, i, hi, rfl⟩
  · rintro ⟨rfl, i, hi, hid⟩
    exact ⟨i, hi, by rw [hid]⟩

theorem nodup_placesOf {o : Office} (hkeys : o.items.KeysDistinct) (boardId : Int) :
    (o.placesOf boardId).Nodup := by
  have hids : ((o.itemsOf boardId).map (·.id)).Nodup :=
    List.Nodup.sublist (List.filter_sublist.map _) hkeys
  apply List.Nodup.of_map Prod.snd
  rwa [placesOf, List.map_map]

/-- With distinct keys, an item lies where its row tells. -/
theorem lies_iff {o : Office} (hkeys : o.items.KeysDistinct) {boardId itemId : Int} :
    o.Lies boardId itemId ↔
      ∃ i, o.items.get? itemId = some i ∧ i.boardId = boardId ∧ i.isDeleted = false := by
  have hmem (i : Item) : i ∈ o.itemsOf boardId ↔
      i ∈ o.items.rows ∧ i.boardId = boardId ∧ i.isDeleted = false := by simp [itemsOf]
  constructor
  · rintro ⟨i, hi, rfl⟩
    obtain ⟨hrow, hboard, hlive⟩ := (hmem i).mp hi
    exact ⟨i, hkeys.get?_of_mem hrow, hboard, hlive⟩
  · rintro ⟨i, hfound, hboard, hlive⟩
    obtain ⟨hrow, hid⟩ := Table.mem_of_get? hfound
    exact ⟨i, (hmem i).mpr ⟨hrow, hboard, hlive⟩, hid⟩

/-! ## Where items lie -/

/-- Every item lies where it lay, or was moved; new ones lie where some item may be moved. -/
structure Shifted (moves : Int → Int → Prop) (o o' : Office) : Prop where
  automations : o'.automations = o.automations
  keys : o.items.KeysDistinct → o'.items.KeysDistinct
  kept (k : Int) (i : Item) (h : o.items.get? k = some i) :
    ∃ i', o'.items.get? k = some i' ∧ i'.isDeleted = i.isDeleted ∧
      (i'.boardId = i.boardId ∨ moves k i'.boardId)
  new (k : Int) (i' : Item) (hnone : o.items.get? k = none) (h : o'.items.get? k = some i') :
    ∃ k', moves k' i'.boardId

section Shifted

variable {moves : Int → Int → Prop} {o o' : Office}

theorem shifted_of_same (hautomations : o'.automations = o.automations) (hitems : o'.items = o.items) :
    Shifted moves o o' where
  automations := hautomations
  keys hkeys := hitems ▸ hkeys
  kept k i h := ⟨i, hitems ▸ h, rfl, .inl rfl⟩
  new k i' hnone h := by
    rw [hitems, hnone] at h
    cases h

instance : Std.Refl (Shifted moves) := ⟨fun _ => shifted_of_same rfl rfl⟩

instance : IsTrans Office (Shifted moves) where
  trans := by
    intro o o' o'' h h'
    constructor
    · rw [h'.automations, h.automations]
    · exact h'.keys ∘ h.keys
    · intro k i hi
      obtain ⟨i', hi', hlive, hboard⟩ := h.kept k i hi
      obtain ⟨i'', hi'', hlive', hboard'⟩ := h'.kept k i' hi'
      refine ⟨i'', hi'', hlive'.trans hlive, ?_⟩
      -- The item was moved by the second part, or lies where the first part left it.
      rcases hboard' with hsame | hmoved
      · rwa [hsame]
      · exact .inr hmoved
    · intro k i'' hnone hi''
      cases hmid : o'.items.get? k with
      | none => exact h'.new k i'' hmid hi''
      | some i' =>
        obtain ⟨row, hrow, -, hboard⟩ := h'.kept k i' hmid
        obtain rfl : row = i'' := Option.some.inj (hrow.symm.trans hi'')
        rcases hboard with hsame | hmoved
        · rw [hsame]
          exact h.new k i' hnone hmid
        · exact ⟨k, hmoved⟩

theorem Shifted.mono {moves' : Int → Int → Prop} (h : Shifted moves o o')
    (hmoves : ∀ k b, moves k b → moves' k b) : Shifted moves' o o' where
  automations := h.automations
  keys := h.keys
  kept k i hi := by
    obtain ⟨i', hi', hlive, hboard⟩ := h.kept k i hi
    exact ⟨i', hi', hlive, hboard.imp id (hmoves k _)⟩
  new k i' hnone hi' := (h.new k i' hnone hi').imp fun k' => hmoves k' _

/-- An item is changed, and stays on its board or is moved. -/
theorem shifted_modify {key : Int} {f : Item → Item} (hid : ∀ i, (f i).id = i.id)
    (hlive : ∀ i, (f i).isDeleted = i.isDeleted)
    (hboard : ∀ i, (f i).boardId = i.boardId ∨ moves key (f i).boardId) :
    Shifted moves o { o with items := o.items.modify key f } := by
  have hkey : ∀ i : Item, Row.key i = key → Row.key (f i) = key := fun i hi => (hid i).trans hi
  constructor
  · rfl
  · exact fun hkeys => hkeys.modify key hkey
  · intro k i hi
    refine ⟨_, Table.get?_modify hkey hi, ?_⟩
    split
    · next hsame =>
      have hk : k = key := (Table.mem_of_get? hi).2.symm.trans (beq_iff_eq.mp hsame)
      rw [hk]
      exact ⟨hlive i, hboard i⟩
    · exact ⟨rfl, .inl rfl⟩
  · intro k i' hnone hi'
    have hmapped := Table.get?_modify_eq_map (k := k) o.items hkey
    rw [hnone] at hmapped
    cases hmapped.symm.trans hi'

/-- A new item is put on a board that items may be moved to. -/
theorem shifted_add {item : Item} (hid : item.id = o.items.nextKey)
    (hboard : ∃ k, moves k item.boardId) :
    Shifted moves o { o with items := o.items.add fun _ => item } := by
  constructor
  · rfl
  · exact fun hkeys => hkeys.add hid
  · exact fun k i hi => ⟨i, Table.get?_add hi, rfl, .inl rfl⟩
  · intro k i' hnone hi'
    -- What is found now, and was not there, is the new item.
    obtain ⟨hmem, hkey⟩ := Table.mem_of_get? hi'
    rw [Table.rows_add, List.mem_append, List.mem_singleton] at hmem
    rcases hmem with hold | rfl
    · have hfound := List.find?_eq_none.mp hnone i' hold
      simp [hkey] at hfound
    · exact hboard

/-- The automations of an event move its item to boards that they aim at. -/
theorem allows_shifted {itemId : Int} {boards : Int → Prop} (h : ∀ b, boards b → moves itemId b) :
    Allows (Shifted moves) itemId boards where
  effect := by
    intro kind item config o o' hitem haims heffect
    cases heffect with
    | none => exact Std.Refl.refl o
    | restated status => exact shifted_modify (fun _ => rfl) (fun _ => rfl) fun _ => .inl rfl
    | filled hfilled =>
      obtain ⟨cells, rfl, -⟩ := hfilled
      exact shifted_of_same rfl rfl
    | noticed new _ => exact shifted_of_same rfl rfl
    | @created copy _ hkind hboard hid hcells =>
      obtain ⟨cells, rfl, -⟩ := hcells
      have haimed := haims (.inl hkind) _ hboard
      have hadded : Shifted moves o { o with items := o.items.add fun _ => copy } :=
        shifted_add hid ⟨itemId, h _ haimed⟩
      exact IsTrans.trans _ _ _ hadded (shifted_of_same rfl rfl)
    | @moved boardId hkind hboard =>
      have haimed := haims (.inr hkind) _ hboard
      refine shifted_modify (fun _ => rfl) (fun _ => rfl) fun _ => .inr ?_
      rw [hitem]
      exact h boardId haimed
    | called replies calls => exact shifted_of_same rfl rfl
  logged _ _ := shifted_of_same rfl rfl
  heard _ _ := shifted_of_same rfl rfl

end Shifted

/-- The automations of the boards were told about the dates of these items, in this order, and about
    nothing else. -/
def DatesTold (showings : List (Int × Int)) (o o' : Office) : Prop :=
  ∃ new, o'.heard = new ++ o.heard ∧ (∀ h ∈ new, h.event.kind = .dateCheck) ∧
    new.reverse.map (fun h => (h.event.boardId, h.event.itemId)) = showings

/-- The item was shown on a board whose automations put items on the other one. -/
def MovedBy (o : Office) (showings : List (Int × Int)) (itemId target : Int) : Prop :=
  ∃ b, (b, itemId) ∈ showings ∧ o.Aims b target

end Office

namespace Automations

open Office

variable {o o' o'' : Office} {today : Option Date} {showings showings' : List (Int × Int)}
  {firings firings' : List Firing}

/-! ## Showing items -/

/-- The automations of a board move the item that they are told about to boards that they aim at. -/
theorem shifted_react (event : Event) (today : Option Date) (o : Office) :
    Shifted (o.MovedBy [(event.boardId, event.itemId)]) o ((react event today).after o) := by
  have hallows : Allows (Shifted (o.MovedBy [(event.boardId, event.itemId)])) event.itemId
      (o.Aims event.boardId) :=
    allows_shifted fun b haims => ⟨event.boardId, List.mem_singleton_self _, haims⟩
  refine rel_react hallows (fun a ha b hb => ?_) today
  obtain ⟨hstored, hboard, hactive⟩ := mem_activeOn.mp ha
  exact ⟨a, hstored, hactive, hboard, hb⟩

/-- What tells the automations of a board about an item, as it is. -/
def dateCheck (o : Office) (boardId : Int) (item : Item) : Event where
  itemId := item.id
  boardId := boardId
  user := some item.createdBy
  kind := .dateCheck
  after := some (o.snapshotOf item)

/-- Items are shown to the automations of boards, one after another, and the automations react. -/
inductive Shown (today : Option Date) :
    Office → List (Int × Int) → List Firing → Office → Prop where
  | nil (o : Office) : Shown today o [] [] o
  | cons {o o' o'' : Office} {boardId : Int} {item : Item} {rest : List (Int × Int)}
      {firings others : List Firing} (hitem : o.items.get? item.id = some item)
      (hreact : (react (dateCheck o boardId item) today).exec o = (.ok firings, o'))
      (hrest : Shown today o' rest others o'') :
      Shown today o ((boardId, item.id) :: rest) (firings ++ others) o''

namespace Shown

theorem append (h : Shown today o showings firings o') (h' : Shown today o' showings' firings' o'') :
    Shown today o (showings ++ showings') (firings ++ firings') o'' := by
  induction h with
  | nil => exact h'
  | cons hitem hreact _ ih =>
    rw [List.append_assoc]
    exact .cons hitem hreact (ih h')

/-- By induction on the showings: each of them moves its item only, and only where the automations of
    its board aim. -/
theorem shifted (h : Shown today o showings firings o') : Shifted (o.MovedBy showings) o o' := by
  induction h with
  | nil o => exact Std.Refl.refl o
  | @cons o o₁ o' boardId item rest firings others _ hreact _ ih =>
    have hstep := shifted_react (dateCheck o boardId item) today o
    rw [Task.after, hreact] at hstep
    have hfirst : Shifted (o.MovedBy ((boardId, item.id) :: rest)) o o₁ := by
      refine hstep.mono fun k b hmoved => ?_
      obtain ⟨c, hshown, haims⟩ := hmoved
      obtain ⟨rfl, rfl⟩ := Prod.mk.inj (List.mem_singleton.mp hshown)
      exact ⟨_, List.mem_cons_self .., haims⟩
    have hothers : Shifted (o.MovedBy ((boardId, item.id) :: rest)) o₁ o' := by
      refine ih.mono fun k b hmoved => ?_
      obtain ⟨c, hshown, haims⟩ := hmoved
      -- The automations are the same all the time.
      rw [aims_congr hstep.automations] at haims
      exact ⟨c, List.mem_cons_of_mem _ hshown, haims⟩
    exact IsTrans.trans _ _ _ hfirst hothers

/-- The automations hear of each showing once. -/
theorem datesTold (h : Shown today o showings firings o') : DatesTold showings o o' := by
  induction h with
  | nil o => exact ⟨[], rfl, by simp, rfl⟩
  | @cons o o₁ o' boardId item rest firings others _ hreact _ ih =>
    obtain ⟨new, hnew, hkind, hplaces⟩ := ih
    obtain ⟨fired, hheard⟩ := heard_react (dateCheck o boardId item) today o
    rw [Task.after, hreact] at hheard
    refine ⟨new ++ [⟨dateCheck o boardId item, some fired⟩], ?_, ?_, ?_⟩
    · rw [hnew, hheard, List.append_assoc]
      rfl
    · intro h hmem
      rcases List.mem_append.mp hmem with hmem | hmem
      · exact hkind h hmem
      · rw [List.mem_singleton.mp hmem]
        rfl
    · simp [dateCheck, hplaces]

end Shown

/-! ## The turn of a board -/

/-- The items are shown to the automations of the board in order, and what fires is counted. -/
theorem exec_showItems (boardId : Int) (items : List Item)
    (hitems : ∀ i ∈ items, ∃ row, o.items.get? i.id = some row) :
    ∃ counts firings o', (items.mapM (showItem boardId today)).exec o = (.ok counts, o') ∧
      (∀ n : Int, counts.foldl (· + ·) n = n + (firings.length : Int)) ∧
      Shown today o (items.map fun i => (boardId, i.id)) firings o' := by
  induction items generalizing o with
  | nil => exact ⟨[], [], o, rfl, by simp, .nil o⟩
  | cons item rest ih =>
    obtain ⟨row, hrow⟩ := hitems item (List.mem_cons_self ..)
    have hid : row.id = item.id := (Table.mem_of_get? hrow).2
    obtain ⟨firings, hanswer⟩ := returns_react (dateCheck o boardId row) today o
    have hreact : (react (dateCheck o boardId row) today).exec o =
        (.ok firings, (react (dateCheck o boardId row) today).after o) := Prod.ext hanswer rfl
    have hshow : (showItem boardId today item).exec o =
        (.ok (firings.length : Int), (react (dateCheck o boardId row) today).after o) := by
      unfold showItem
      rw [Task.exec_get_bind, hrow]
      exact (Task.exec_bind_ok hreact).trans rfl
    -- The items behind are still there.
    have hrest : ∀ i ∈ rest,
        ∃ row', ((react (dateCheck o boardId row) today).after o).items.get? i.id = some row' := by
      intro i hi
      obtain ⟨row', hrow'⟩ := hitems i (List.mem_cons_of_mem _ hi)
      obtain ⟨row'', hrow'', -⟩ := (shifted_react _ today o).kept i.id row' hrow'
      exact ⟨row'', hrow''⟩
    obtain ⟨counts, others, o', hothers, hcounts, hshown⟩ := ih hrest
    refine ⟨firings.length :: counts, firings ++ others, o', ?_, ?_, ?_⟩
    · rw [List.mapM_cons, Task.exec_bind_ok hshow, Task.exec_bind_ok hothers]
      rfl
    · intro n
      rw [List.foldl_cons, hcounts, List.length_append]
      omega
    · rw [← hid] at hrow
      rw [List.map_cons, ← hid]
      exact .cons hrow hreact hshown

/-- At its turn, the items that lie on a board are shown to its automations. -/
theorem exec_passBoard (hkeys : o.items.KeysDistinct) (today : Option Date) (counts : PassCounts)
    (boardId : Int) :
    ∃ firings o', (passBoard today counts boardId).exec o =
        (.ok ⟨counts.boards + 1, counts.items + ((o.placesOf boardId).length : Int),
          counts.fired + (firings.length : Int)⟩, o') ∧
      Shown today o (o.placesOf boardId) firings o' := by
  have hitems : ∀ i ∈ o.itemsOf boardId, ∃ row, o.items.get? i.id = some row := by
    intro i hi
    exact ⟨i, hkeys.get?_of_mem (List.mem_of_mem_filter hi)⟩
  obtain ⟨fired, firings, o', hexec, hcount, hshown⟩ := exec_showItems boardId _ hitems
  refine ⟨firings, o', ?_, hshown⟩
  unfold passBoard placesOf
  rw [Task.exec_get_bind, Task.exec_bind_ok hexec, hcount, Int.zero_add, List.length_map]
  rfl

/-! ## Rounds -/

/-- What is shown in a round over the boards. -/
structure Rounds (o : Office) (boards : List Int) (showings : List (Int × Int)) : Prop where
  /-- Every item that lies on one of the boards is shown there. -/
  live : ∀ b ∈ boards, ∀ k, o.Lies b k → (b, k) ∈ showings
  /-- No item is shown on a board twice. -/
  once : showings.Nodup
  ordered : showings.Pairwise fun s s' => s.1 ≤ s'.1
  /-- An item that is shown lay on the board, or an earlier board aims at it, on which the item was shown
      or made. -/
  reasons : ∀ s ∈ showings, s.1 ∈ boards ∧ (o.Lies s.1 s.2 ∨
    ∃ b ∈ boards, b < s.1 ∧ o.Aims b s.1 ∧ ((b, s.2) ∈ showings ∨ o.items.get? s.2 = none))
  /-- It lay on one of the boards at first, or there was no such item. -/
  origins : ∀ s ∈ showings, o.items.get? s.2 = none ∨ ∃ b ∈ boards, b ≤ s.1 ∧ o.Lies b s.2

namespace Rounds

variable {boards : List Int} {b k : Int}

theorem nil (o : Office) : Rounds o [] [] := by
  constructor <;> simp

/-- What an item that lies on a board at its turn comes from. -/
theorem arrival (h : Rounds o boards showings) (hkeys : o.items.KeysDistinct)
    (hshifted : Shifted (o.MovedBy showings) o o') (hlies : o'.Lies b k) :
    o.Lies b k ∨ ∃ c ∈ boards, o.Aims c b ∧ ((c, k) ∈ showings ∨ o.items.get? k = none) := by
  obtain ⟨i, hfound, rfl, hlive⟩ := (lies_iff (hshifted.keys hkeys)).mp hlies
  cases hbefore : o.items.get? k with
  | none =>
    obtain ⟨k', c, hshown, haims⟩ := hshifted.new k i hbefore hfound
    exact .inr ⟨c, (h.reasons _ hshown).1, haims, .inr rfl⟩
  | some old =>
    obtain ⟨row, hrow, hkept, hboard⟩ := hshifted.kept k old hbefore
    obtain rfl : row = i := Option.some.inj (hrow.symm.trans hfound)
    rcases hboard with hsame | ⟨c, hshown, haims⟩
    · exact .inl ((lies_iff hkeys).mpr ⟨old, hbefore, hsame.symm, hkept.symm.trans hlive⟩)
    · exact .inr ⟨c, (h.reasons _ hshown).1, haims, .inl hshown⟩

/-- An item that lies on a board at first lies there at its turn: only items that are shown are moved,
    and those that were shown lay on the boards in front. -/
theorem still (h : Rounds o boards showings) (hkeys : o.items.KeysDistinct)
    (hshifted : Shifted (o.MovedBy showings) o o') (hlater : ∀ c ∈ boards, c < b) (hlies : o.Lies b k) :
    o'.Lies b k := by
  obtain ⟨i, hfound, rfl, hlive⟩ := (lies_iff hkeys).mp hlies
  obtain ⟨i', hfound', hkept, hboard⟩ := hshifted.kept k i hfound
  rcases hboard with hsame | ⟨c, hshown, -⟩
  · exact (lies_iff (hshifted.keys hkeys)).mpr ⟨i', hfound', hsame, hkept.trans hlive⟩
  · exfalso
    rcases h.origins _ hshown with hnone | ⟨c', hc', -, hother⟩
    · simp [hfound] at hnone
    · -- The item cannot have lain on a board in front as well.
      obtain ⟨other, hagain, rfl, -⟩ := (lies_iff hkeys).mp hother
      obtain rfl : i = other := Option.some.inj (hfound.symm.trans hagain)
      have hless := hlater _ hc'
      omega

/-- A round goes on with the turn of a later board, at which the items that lie there then are shown. -/
theorem turn (h : Rounds o boards showings) (hkeys : o.items.KeysDistinct)
    (hshifted : Shifted (o.MovedBy showings) o o') (hlater : ∀ c ∈ boards, c < b) :
    Rounds o (boards ++ [b]) (showings ++ o'.placesOf b) := by
  constructor
  · intro c hc k hlies
    rw [List.mem_append]
    rcases List.mem_append.mp hc with hc | hc
    · exact .inl (h.live c hc k hlies)
    · obtain rfl := List.mem_singleton.mp hc
      exact .inr (mem_placesOf.mpr ⟨rfl, h.still hkeys hshifted hlater hlies⟩)
  · refine List.Nodup.append h.once (nodup_placesOf (hshifted.keys hkeys) b) ?_
    intro s hs hturn
    have hless := hlater _ (h.reasons s hs).1
    have hboard := (mem_placesOf.mp hturn).1
    omega
  · rw [List.pairwise_append]
    refine ⟨h.ordered, ?_, ?_⟩
    · refine List.pairwise_of_forall_mem_list fun s hs s' hs' => ?_
      have hboard := (mem_placesOf.mp hs).1
      have hboard' := (mem_placesOf.mp hs').1
      omega
    · intro s hs s' hs'
      have hless := hlater _ (h.reasons s hs).1
      have hboard := (mem_placesOf.mp hs').1
      omega
  · intro s hs
    rcases List.mem_append.mp hs with hs | hs
    · obtain ⟨hboard, hreason⟩ := h.reasons s hs
      refine ⟨List.mem_append_left _ hboard, hreason.imp id ?_⟩
      rintro ⟨c, hc, hless, haims, hcause⟩
      exact ⟨c, List.mem_append_left _ hc, hless, haims, hcause.imp (List.mem_append_left _) id⟩
    · obtain ⟨rfl, hlies⟩ := mem_placesOf.mp hs
      refine ⟨by simp, (h.arrival hkeys hshifted hlies).imp id ?_⟩
      rintro ⟨c, hc, haims, hcause⟩
      exact ⟨c, List.mem_append_left _ hc, hlater c hc, haims, hcause.imp (List.mem_append_left _) id⟩
  · intro s hs
    rcases List.mem_append.mp hs with hs | hs
    · refine (h.origins s hs).imp id ?_
      rintro ⟨c, hc, hle, hlies⟩
      exact ⟨c, List.mem_append_left _ hc, hle, hlies⟩
    · obtain ⟨rfl, hlies⟩ := mem_placesOf.mp hs
      rcases h.arrival hkeys hshifted hlies with hfirst | ⟨c, -, -, hshown | hnone⟩
      · exact .inr ⟨s.1, by simp, Int.le_refl _, hfirst⟩
      · -- It comes from where it was shown before.
        refine (h.origins _ hshown).imp id ?_
        rintro ⟨c', hc', -, hlies⟩
        exact ⟨c', List.mem_append_left _ hc', Int.le_of_lt (hlater c' hc'), hlies⟩
      · exact .inl hnone

/-- Where no board aims at a later one, the items that lie on the boards at first are shown, and no
    others. -/
theorem perm (h : Rounds o boards showings) (hkeys : o.items.KeysDistinct) (hnodup : boards.Nodup)
    (hapart : ∀ b ∈ boards, ∀ c ∈ boards, b < c → ¬ o.Aims b c) :
    showings.Perm (boards.flatMap o.placesOf) := by
  have hplaces : (boards.flatMap o.placesOf).Nodup := by
    rw [List.nodup_flatMap]
    refine ⟨fun b _ => nodup_placesOf hkeys b, hnodup.imp fun hne s hs hs' => hne ?_⟩
    rw [← (mem_placesOf.mp hs).1, ← (mem_placesOf.mp hs').1]
  rw [List.perm_ext_iff_of_nodup h.once hplaces]
  intro s
  rw [List.mem_flatMap]
  constructor
  · intro hs
    obtain ⟨hboard, hlies | ⟨c, hc, hless, haims, -⟩⟩ := h.reasons s hs
    · exact ⟨s.1, hboard, mem_placesOf.mpr ⟨rfl, hlies⟩⟩
    · exact absurd haims (hapart c hc s.1 hboard hless)
  · rintro ⟨b, hb, hs⟩
    obtain ⟨rfl, hlies⟩ := mem_placesOf.mp hs
    exact h.live s.1 hb s.2 hlies

end Rounds

/-- By induction on the boards whose turn is still to come: each turn is added to the round. -/
theorem exec_turns (hkeys : o.items.KeysDistinct) {done boards : List Int}
    (hsorted : (done ++ boards).Pairwise (· < ·)) (hshown : Shown today o showings firings o')
    (hround : Rounds o done showings) :
    ∃ showings' firings' o'',
      (boards.foldlM (passBoard today) ⟨done.length, showings.length, firings.length⟩).exec o' =
        (.ok ⟨(done ++ boards).length, showings'.length, firings'.length⟩, o'') ∧
      Shown today o showings' firings' o'' ∧ Rounds o (done ++ boards) showings' := by
  induction boards generalizing done showings firings o' with
  | nil => exact ⟨showings, firings, o', by simp [List.foldlM], hshown, by simpa using hround⟩
  | cons b rest ih =>
    have hlater : ∀ c ∈ done, c < b := fun c hc =>
      (List.pairwise_append.mp hsorted).2.2 c hc b (List.mem_cons_self ..)
    obtain ⟨fired, o₁, hexec, hturn⟩ := exec_passBoard (hshown.shifted.keys hkeys) today
      ⟨done.length, showings.length, firings.length⟩ b
    rw [List.append_cons] at hsorted ⊢
    obtain ⟨showings', firings', o'', hrest, hshown', hround'⟩ :=
      ih hsorted (hshown.append hturn) (hround.turn hkeys hshown.shifted hlater)
    refine ⟨showings', firings', o'', ?_, hshown', hround'⟩
    rw [List.foldlM_cons, Task.exec_bind_ok hexec, ← hrest]
    simp

/-- The boards that have a turn are the dated ones in ascending order, unless a trigger cannot be read. -/
theorem datedBoards_cases (o : Office) :
    (∃ a ∈ o.automations.rows, a.isActive = true ∧ ∃ fault, a.hasDateTrigger = .error fault ∧
        datedBoards o = .error fault) ∨
      ∃ boards, datedBoards o = .ok boards ∧ boards.Pairwise (· < ·) ∧ ∀ b, b ∈ boards ↔ o.Dated b := by
  unfold datedBoards
  have hcases := Result.filterM_cases Automation.hasDateTrigger (o.automations.rows.filter (·.isActive))
  rcases hcases with ⟨a, ha, fault, hfault, herror⟩ | ⟨dated, hdated, hmem⟩
  · obtain ⟨hstored, hactive⟩ := List.mem_filter.mp ha
    refine .inl ⟨a, hstored, hactive, fault, hfault, ?_⟩
    rw [herror]
    rfl
  · refine .inr ⟨_, by rw [hdated]; rfl, ?_, fun b => ?_⟩
    · -- The boards ascend, and none is there twice.
      have hsorted : ((dated.map (·.boardId)).eraseDups.mergeSort fun a b => a ≤ b).Pairwise
          fun a b => decide (a ≤ b) = true := by
        apply List.pairwise_mergeSort
        · intro a b c hab hbc
          simp at hab hbc ⊢
          omega
        · intro a b
          simp
          omega
      have hnodup := (List.mergeSort_perm (dated.map (·.boardId)).eraseDups
        fun a b => a ≤ b).nodup_iff.mpr (nodup_eraseDups _)
      refine (hsorted.and hnodup).imp fun {a b} h => ?_
      simp at h
      omega
    · rw [(List.mergeSort_perm _ _).mem_iff, List.mem_eraseDups, List.mem_map]
      constructor
      · rintro ⟨a, ha, rfl⟩
        obtain ⟨hstored, htested⟩ := (hmem a).mp ha
        exact ⟨a, (List.mem_filter.mp hstored).1, (List.mem_filter.mp hstored).2, rfl, htested⟩
      · rintro ⟨a, hstored, hactive, hboard, htested⟩
        exact ⟨a, (hmem a).mpr ⟨List.mem_filter.mpr ⟨hstored, hactive⟩, htested⟩, hboard⟩

/-- A daily pass takes the dated boards in ascending order. Every item that lies on one of them at first
    is shown to its automations once. Other items are shown to them if a board that had its turn aims at
    the board, and the item was shown on that board or is new. What is shown and what fires is counted,
    and the automations are told about nothing else. Where a trigger cannot be read, the pass fails and
    changes nothing. -/
theorem dailyPass_shows (hkeys : o.items.KeysDistinct) (today : Option Date) :
    (∃ a ∈ o.automations.rows, a.isActive = true ∧ ∃ fault, a.hasDateTrigger = .error fault ∧
        (dailyPass today).exec o = (.error fault, o)) ∨
      ∃ boards showings firings o',
        (dailyPass today).exec o = (.ok ⟨boards.length, showings.length, firings.length⟩, o') ∧
        boards.Pairwise (· < ·) ∧ (∀ b, b ∈ boards ↔ o.Dated b) ∧
        Shown today o showings firings o' ∧ DatesTold showings o o' ∧ Rounds o boards showings ∧
        ((∀ b ∈ boards, ∀ c ∈ boards, b < c → ¬ o.Aims b c) →
          showings.Perm (boards.flatMap o.placesOf)) := by
  unfold dailyPass
  rw [Task.exec_get_bind, Reads.exec_bind (.ofResult _), Task.answer_ofResult]
  rcases datedBoards_cases o with
    ⟨a, hstored, hactive, fault, hfault, herror⟩ | ⟨boards, hok, hsorted, hdated⟩
  · refine .inl ⟨a, hstored, hactive, fault, hfault, ?_⟩
    rw [herror]
  · have hall : ([] ++ boards).Pairwise (· < ·) := hsorted
    obtain ⟨showings, firings, o', hexec, hshown, hround⟩ := exec_turns hkeys hall (.nil o) (.nil o)
    refine .inr ⟨boards, showings, firings, o', ?_, hsorted, hdated, hshown, hshown.datesTold, hround, ?_⟩
    · rw [hok]
      exact hexec
    · exact hround.perm hkeys (hsorted.imp fun hless => Int.ne_of_lt hless)

/-! ## A relay -/

/-- Where the date of an item is the current day, it is put on another board. -/
def handover (id boardId target : Int) : Automation where
  id := id
  boardId := boardId
  name := "Hand over"
  description := ""
  trigger := .object [("type", .text "date_equals_today"),
    ("config", .object [("columnId", .text "1")])]
  conditions := .null
  actions := .list [.object [("type", .text "move_to_board"),
    ("config", .object [("targetBoardId", .int target)])]]
  isActive := true
  createdBy := "A"
  createdAt := ⟨0⟩
  updatedAt := ⟨0⟩

/-- The small office with a second board, where each board hands items over to the other one on the first
    day of the calendar. -/
def relay : Office :=
  { Site.small.office with
    boards := ⟨[⟨1, 1, "Purchases", ⟨0⟩⟩, ⟨2, 1, "Payments", ⟨0⟩⟩]⟩
    columns := ⟨[⟨1, 1, "Due", "date", 0⟩]⟩
    cells := ⟨[⟨1, 1, 1, .text "0001-01-01"⟩]⟩
    automations := ⟨[handover 1 1 2, handover 2 2 1]⟩ }

theorem datedBoards_relay : datedBoards relay = .ok [1, 2] := by
  have hdated : (relay.automations.rows.filter (·.isActive)).filterM Automation.hasDateTrigger =
      .ok relay.automations.rows := by
    with_unfolding_all rfl
  have hboards : (relay.automations.rows.map (·.boardId)).eraseDups = [1, 2] := by
    with_unfolding_all rfl
  have hsorted : ([1, 2] : List Int).mergeSort (fun a b => a ≤ b) = [1, 2] :=
    List.mergeSort_of_pairwise (by decide)
  rw [datedBoards, hdated]
  change Except.ok ((relay.automations.rows.map (·.boardId)).eraseDups.mergeSort fun a b => a ≤ b) = _
  rw [hboards, hsorted]

theorem exec_relay : dailyPass.exec relay = ([1, 2].foldlM (passBoard none) {}).exec relay := by
  unfold dailyPass
  rw [Task.exec_get_bind, datedBoards_relay]
  rfl

theorem counts_relay : dailyPass.answer relay = .ok ⟨2, 2, 2⟩ := by
  rw [Task.answer, exec_relay]
  with_unfolding_all rfl

theorem dated_relay : relay.Dated 1 :=
  ⟨handover 1 1 2, List.mem_cons_self .., rfl, rfl, rfl⟩

/-- The item of the relay is shown on its board, and then once more. -/
theorem dailyPass_shows_relay :
    ∃ showings firings o', dailyPass.exec relay = (.ok ⟨2, 2, 2⟩, o') ∧
      Shown none relay showings firings o' ∧ showings.length = 2 ∧ (1, 1) ∈ showings := by
  have hkeys : relay.items.KeysDistinct := List.nodup_singleton _
  have hlies : relay.Lies 1 1 := ⟨.small, List.mem_singleton_self _, rfl⟩
  have hcounts := counts_relay
  unfold Task.answer at hcounts
  rcases dailyPass_shows hkeys none with
    ⟨a, -, -, fault, -, hexec⟩ |
    ⟨boards, showings, firings, o', hexec, -, hdated, hshown, -, hround, -⟩
  · rw [hexec] at hcounts
    cases hcounts
  · rw [hexec] at hcounts ⊢
    simp at hcounts
    refine ⟨showings, firings, o', ?_, hshown, ?_, hround.live 1 ((hdated 1).mpr dated_relay) 1 hlies⟩
    · simp [hcounts]
    · omega

/-- One item lies on the boards of the relay, and it is shown on both of them. -/
theorem shown_twice :
    relay.Dated 1 ∧ relay.Dated 2 ∧ [1, 2].flatMap relay.placesOf = [(1, 1)] ∧
      dailyPass.answer relay = .ok ⟨2, 2, 2⟩ ∧
      ((dailyPass.after relay).heard.reverse.map fun h => (h.event.boardId, h.event.itemId)) =
        [(1, 1), (2, 1)] := by
  have hdated : relay.Dated 2 :=
    ⟨handover 2 2 1, List.mem_cons_of_mem _ (List.mem_singleton_self _), rfl, rfl, rfl⟩
  refine ⟨dated_relay, hdated, rfl, counts_relay, ?_⟩
  rw [Task.after, exec_relay]
  decide +kernel

end Automations

end Signoff
