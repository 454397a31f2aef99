import Signoff.Condition.Written
import Signoff.Proofs.Task
import Signoff.Proofs.Value

/-! # What the evaluation of a condition comes to

    A condition that was written holds or does not hold, unless the evaluation
    comes upon a node that it cannot deal with, or runs out of room for its calls:

    * `Condition.Reaches`: the nodes that are looked at, and the room that is left for
      them. Parts behind one that decides a junction are not.
    * `Condition.Defective`: the nodes that cannot be dealt with, and why: parts
      that are no list, a field that is no name, an integer that no double is near, and
      nodes or values for which the room that is left is too small.
    * `Condition.holdsWithin_eq_error_iff`: there is no answer just if a defective node is
      reached.
    * `Condition.holdsWithin_missing`: a missing field counts as the empty text and as zero.
      For the test of membership it counts as null.
    * `Condition.outcomes`: this for all written conditions and for blocks, and that
      malformed nodes do not hold.
-/

namespace Signoff.Condition

/-! ## Nodes that cannot be dealt with -/

/-- Does the test compare numbers? -/
def comparesNumbers : Test → Bool
  | .greaterThan => true
  | .lessThan => true
  | _ => false

/-- The value of a snapshot that a leaf tests. -/
def tested (snapshot : Snapshot) : Value → Value
  | .text name => snapshot.get name
  | _ => .null

/-- A node that cannot be dealt with where so much room is left, and the fault. -/
inductive Defective (snapshot : Snapshot) : Nat → Condition → Fault → Prop where
  /-- There is no room to look at the node. -/
  | crowded {room : Nat} {c : Condition} (hthere : c ≠ .absent) (hroom : room < nodeCalls) :
      Defective snapshot room c (.exhausted .depth)
  /-- The parts of a junction cannot be gone through. -/
  | unlistable {room : Nat} (hroom : nodeCalls ≤ room) (parts : Value) :
      Defective snapshot room (.unlistable parts) (.notIterable parts)
  /-- The field is a list or an object. -/
  | unhashable {room : Nat} {test : Test} {field expected : Value} (hroom : nodeCalls ≤ room)
      (htruthy : field.truthy = true) (hfield : field.isHashable = false) :
      Defective snapshot room (.leaf test field expected) (.unhashable field)
  /-- Texts or members are compared, and the values are nested too deep for it. -/
  | tooDeep {room : Nat} {test : Test} {field expected : Value} (hroom : nodeCalls ≤ room)
      (htruthy : field.truthy = true) (hfield : field.isHashable = true)
      (hcalls : room < testCalls test (tested snapshot field) expected) :
      Defective snapshot room (.leaf test field expected) (.exhausted .depth)
  /-- Numbers are compared, and one of them is too large for a double. -/
  | tooLarge {room : Nat} {test : Test} {field expected : Value} (hroom : nodeCalls ≤ room)
      (htruthy : field.truthy = true) (hfield : field.isHashable = true)
      (htest : comparesNumbers test = true)
      (hlarge : Value.IsTooLarge (tested snapshot field) ∨ expected.IsTooLarge) :
      Defective snapshot room (.leaf test field expected) .intTooLarge

/-- The nodes that are looked at, and the room that is left for each: the condition itself, and those that
    a part of it looks at, if the parts in front of it have not decided. -/
inductive Reaches (snapshot : Snapshot) : Nat → Condition → Nat → Condition → Prop where
  | here (room : Nat) (c : Condition) : Reaches snapshot room c room c
  | all {room left : Nat} {c node : Condition} {before behind : List Condition}
      (hroom : nodeCalls ≤ room)
      (hbefore : ∀ b ∈ before, b.holdsWithin snapshot (room - partCalls) = .ok true)
      (hc : Reaches snapshot (room - partCalls) c left node) :
      Reaches snapshot room (.all (before ++ c :: behind)) left node
  | any {room left : Nat} {c node : Condition} {before behind : List Condition}
      (hroom : nodeCalls ≤ room)
      (hbefore : ∀ b ∈ before, b.holdsWithin snapshot (room - partCalls) = .ok false)
      (hc : Reaches snapshot (room - partCalls) c left node) :
      Reaches snapshot room (.any (before ++ c :: behind)) left node

/-- A defective node is reached. -/
def Breaks (snapshot : Snapshot) (room : Nat) (c : Condition) (fault : Fault) : Prop :=
  ∃ left node, Reaches snapshot room c left node ∧ Defective snapshot left node fault

variable {snapshot : Snapshot} {fault : Fault} {c node : Condition} {test : Test}
  {field expected v : Value} {room left : Nat}

/-! ### Leaves -/

theorem comparisonNumber_eq_error_iff :
    comparisonNumber v = .error fault ↔ v.IsTooLarge ∧ fault = .intTooLarge := by
  rw [← Value.number?_eq_error_iff]
  constructor
  · intro h
    rcases Result.bind_eq_error h with h | ⟨number, -, h⟩
    · exact h
    · cases h
  · intro h
    rw [comparisonNumber, h]
    rfl

/-- A comparison of numbers reads the two sides one after the other. -/
theorem compared_eq_error_iff {a b : Value} {f : Float → Float → Bool} :
    (do
      let x ← comparisonNumber a
      let y ← comparisonNumber b
      pure (f x y) : Result Bool) = .error fault ↔
      (a.IsTooLarge ∨ b.IsTooLarge) ∧ fault = .intTooLarge := by
  constructor
  · intro h
    rcases Result.bind_eq_error h with ha | ⟨x, -, h⟩
    · obtain ⟨hlarge, hfault⟩ := comparisonNumber_eq_error_iff.mp ha
      exact ⟨.inl hlarge, hfault⟩
    · rcases Result.bind_eq_error h with hb | ⟨y, -, h⟩
      · obtain ⟨hlarge, hfault⟩ := comparisonNumber_eq_error_iff.mp hb
        exact ⟨.inr hlarge, hfault⟩
      · cases h
  · rintro ⟨hlarge, rfl⟩
    cases ha : comparisonNumber a with
    | error _ =>
      obtain ⟨-, rfl⟩ := comparisonNumber_eq_error_iff.mp ha
      rfl
    | ok x =>
      have hb : comparisonNumber b = .error .intTooLarge := by
        rcases hlarge with hlarge | hlarge
        · rw [comparisonNumber_eq_error_iff.mpr ⟨hlarge, rfl⟩] at ha
          cases ha
        · exact comparisonNumber_eq_error_iff.mpr ⟨hlarge, rfl⟩
      rw [hb]
      rfl

theorem testHolds_eq_error_iff {actual : Value} :
    testHolds test actual expected = .error fault ↔
      comparesNumbers test = true ∧ (actual.IsTooLarge ∨ expected.IsTooLarge) ∧
        fault = .intTooLarge := by
  cases test with
  | greaterThan | lessThan => exact compared_eq_error_iff.trans (and_iff_right rfl).symm
  | _ => exact iff_of_false nofun fun h => nomatch h.1

theorem lookUp_of_hashable (h : field.isHashable = true) :
    lookUp snapshot field = .ok (tested snapshot field) := by
  cases field <;> first | rfl | cases h

theorem lookUp_of_not_hashable (h : field.isHashable = false) :
    lookUp snapshot field = .error (.unhashable field) := by
  cases field <;> first | rfl | cases h

/-- Comparing numbers nests no calls. -/
theorem testCalls_of_comparesNumbers {actual : Value} (h : comparesNumbers test = true) :
    testCalls test actual expected = 0 := by
  cases test with
  | greaterThan | lessThan => rfl
  | _ => cases h

/-- A leaf has no answer just if it is defective. -/
theorem leaf_eq_error_iff :
    holdsWithin snapshot (.leaf test field expected) room = .error fault ↔
      Defective snapshot room (.leaf test field expected) fault := by
  rw [holdsWithin, Result.within_eq_error_iff]
  constructor
  · rintro (⟨hroom, rfl⟩ | ⟨hroom, h⟩)
    · exact .crowded nofun hroom
    · -- The field is looked up, then the test has its room, then its numbers: the first fault shows.
      cases htruthy : field.truthy with
      | false =>
        rw [htruthy] at h
        cases h
      | true =>
        rw [htruthy, if_pos rfl] at h
        cases hfield : field.isHashable with
        | false =>
          rw [lookUp_of_not_hashable hfield] at h
          cases h
          exact .unhashable hroom htruthy hfield
        | true =>
          rw [lookUp_of_hashable hfield, Result.ok_bind, Result.within_eq_error_iff] at h
          rcases h with ⟨hcalls, rfl⟩ | ⟨-, h⟩
          · exact .tooDeep hroom htruthy hfield hcalls
          · obtain ⟨htest, hlarge, rfl⟩ := testHolds_eq_error_iff.mp h
            exact .tooLarge hroom htruthy hfield htest hlarge
  · intro h
    cases h with
    | crowded _ hroom => exact .inl ⟨hroom, rfl⟩
    | unhashable hroom htruthy hfield =>
      rw [htruthy, if_pos rfl, lookUp_of_not_hashable hfield]
      exact .inr ⟨hroom, rfl⟩
    | tooDeep hroom htruthy hfield hcalls =>
      rw [htruthy, if_pos rfl, lookUp_of_hashable hfield, Result.ok_bind, Result.within_eq_error_iff]
      exact .inr ⟨hroom, .inl ⟨hcalls, rfl⟩⟩
    | tooLarge hroom htruthy hfield htest hlarge =>
      rw [htruthy, if_pos rfl, lookUp_of_hashable hfield, Result.ok_bind, Result.within_eq_error_iff,
        testCalls_of_comparesNumbers htest]
      exact .inr ⟨hroom, .inr ⟨Nat.zero_le room, testHolds_eq_error_iff.mpr ⟨htest, hlarge, rfl⟩⟩⟩

/-! ### Junctions -/

theorem allHoldWithin_append {before : List Condition}
    (h : ∀ b ∈ before, b.holdsWithin snapshot (room - partCalls) = .ok true) (rest : List Condition) :
    allHoldWithin snapshot (before ++ rest) room = allHoldWithin snapshot rest room := by
  induction before with
  | nil => rfl
  | cons b others ih =>
    rw [List.cons_append, allHoldWithin, h b (List.mem_cons_self ..)]
    exact ih fun other hother => h other (List.mem_cons_of_mem _ hother)

theorem anyHoldsWithin_append {before : List Condition}
    (h : ∀ b ∈ before, b.holdsWithin snapshot (room - partCalls) = .ok false) (rest : List Condition) :
    anyHoldsWithin snapshot (before ++ rest) room = anyHoldsWithin snapshot rest room := by
  induction before with
  | nil => rfl
  | cons b others ih =>
    rw [List.cons_append, anyHoldsWithin, h b (List.mem_cons_self ..)]
    exact ih fun other hother => h other (List.mem_cons_of_mem _ hother)

/-- No node but the absent one is looked at without room. -/
theorem holdsWithin_of_crowded (hthere : c ≠ .absent) (hroom : room < nodeCalls) :
    holdsWithin snapshot c room = .error (.exhausted .depth) := by
  cases c with
  | absent => exact absurd rfl hthere
  | _ =>
    rw [holdsWithin]
    exact Result.within_eq_error_iff.mpr (.inl ⟨hroom, rfl⟩)

/-- A defective node that is reached leaves no answer. -/
theorem Reaches.holdsWithin_eq_error (h : Reaches snapshot room c left node)
    (hnode : Defective snapshot left node fault) : holdsWithin snapshot c room = .error fault := by
  -- On the way to the node: each junction on it gives the fault of its part, as the parts in front
  -- of that one have not settled it.
  induction h with
  | here room c =>
    cases hnode with
    | crowded hthere hroom => exact holdsWithin_of_crowded hthere hroom
    | unlistable hroom parts => exact Result.within_eq_error_iff.mpr (.inr ⟨hroom, rfl⟩)
    | unhashable hroom htruthy hfield => exact leaf_eq_error_iff.mpr (.unhashable hroom htruthy hfield)
    | tooDeep hroom htruthy hfield hcalls =>
      exact leaf_eq_error_iff.mpr (.tooDeep hroom htruthy hfield hcalls)
    | tooLarge hroom htruthy hfield htest hlarge =>
      exact leaf_eq_error_iff.mpr (.tooLarge hroom htruthy hfield htest hlarge)
  | all hroom hbefore _ ih =>
    rw [holdsWithin, allHoldWithin_append hbefore, allHoldWithin, ih hnode]
    exact Result.within_eq_error_iff.mpr (.inr ⟨hroom, rfl⟩)
  | any hroom hbefore _ ih =>
    rw [holdsWithin, anyHoldsWithin_append hbefore, anyHoldsWithin, ih hnode]
    exact Result.within_eq_error_iff.mpr (.inr ⟨hroom, rfl⟩)

mutual

theorem breaks_of_error : ∀ (c : Condition) {room : Nat}, holdsWithin snapshot c room = .error fault →
    Breaks snapshot room c fault
  | .absent, _, h => by cases h
  | .malformed, _, h => by
    rcases Result.within_eq_error_iff.mp h with ⟨hroom, rfl⟩ | ⟨-, h⟩
    · exact ⟨_, _, .here _ _, .crowded nofun hroom⟩
    · cases h
  | .unlistable parts, _, h => by
    rcases Result.within_eq_error_iff.mp h with ⟨hroom, rfl⟩ | ⟨hroom, h⟩
    · exact ⟨_, _, .here _ _, .crowded nofun hroom⟩
    · cases h
      exact ⟨_, _, .here _ _, .unlistable hroom parts⟩
  | .leaf _ _ _, _, h => ⟨_, _, .here _ _, leaf_eq_error_iff.mp h⟩
  | .all parts, _, h => by
    rcases Result.within_eq_error_iff.mp h with ⟨hroom, rfl⟩ | ⟨hroom, h⟩
    · exact ⟨_, _, .here _ _, .crowded nofun hroom⟩
    · obtain ⟨before, c, behind, rfl, hbefore, left, node, hc, hnode⟩ := breaks_of_allHoldWithin parts h
      exact ⟨left, node, .all hroom hbefore hc, hnode⟩
  | .any parts, _, h => by
    rcases Result.within_eq_error_iff.mp h with ⟨hroom, rfl⟩ | ⟨hroom, h⟩
    · exact ⟨_, _, .here _ _, .crowded nofun hroom⟩
    · obtain ⟨before, c, behind, rfl, hbefore, left, node, hc, hnode⟩ := breaks_of_anyHoldsWithin parts h
      exact ⟨left, node, .any hroom hbefore hc, hnode⟩

theorem breaks_of_allHoldWithin : ∀ (parts : List Condition) {room : Nat},
    allHoldWithin snapshot parts room = .error fault →
    ∃ before c behind, parts = before ++ c :: behind ∧
      (∀ b ∈ before, b.holdsWithin snapshot (room - partCalls) = .ok true) ∧
      Breaks snapshot (room - partCalls) c fault
  | [], _, h => by cases h
  | c :: rest, _, h => by
    -- A part that does not hold settles the junction, so the ones in front of a fault all hold.
    rcases Result.bind_eq_error h with h | ⟨isHeld, hc, h⟩
    · exact ⟨[], c, rest, rfl, nofun, breaks_of_error c h⟩
    · cases isHeld with
      | false => cases h
      | true =>
        obtain ⟨before, d, behind, rfl, hbefore, hd⟩ := breaks_of_allHoldWithin rest h
        exact ⟨c :: before, d, behind, rfl, List.forall_mem_cons.mpr ⟨hc, hbefore⟩, hd⟩

theorem breaks_of_anyHoldsWithin : ∀ (parts : List Condition) {room : Nat},
    anyHoldsWithin snapshot parts room = .error fault →
    ∃ before c behind, parts = before ++ c :: behind ∧
      (∀ b ∈ before, b.holdsWithin snapshot (room - partCalls) = .ok false) ∧
      Breaks snapshot (room - partCalls) c fault
  | [], _, h => by cases h
  | c :: rest, _, h => by
    rcases Result.bind_eq_error h with h | ⟨isHeld, hc, h⟩
    · exact ⟨[], c, rest, rfl, nofun, breaks_of_error c h⟩
    · cases isHeld with
      | true => cases h
      | false =>
        obtain ⟨before, d, behind, rfl, hbefore, hd⟩ := breaks_of_anyHoldsWithin rest h
        exact ⟨c :: before, d, behind, rfl, List.forall_mem_cons.mpr ⟨hc, hbefore⟩, hd⟩

end

/-- There is no answer just if a defective node is reached. -/
theorem holdsWithin_eq_error_iff :
    holdsWithin snapshot c room = .error fault ↔ Breaks snapshot room c fault :=
  ⟨breaks_of_error c, fun ⟨_, _, hreached, hnode⟩ => hreached.holdsWithin_eq_error hnode⟩

/-! ## Fields that are missing -/

theorem comparisonNumber_empty : comparisonNumber (.text "") = comparisonNumber .null := by
  with_unfolding_all rfl

theorem comparisonNumber_zero : comparisonNumber (.int 0) = comparisonNumber .null := by
  with_unfolding_all rfl

theorem testHolds_empty (h : test ≠ .oneOf) (expected : Value) :
    testHolds test (.text "") expected = testHolds test .null expected := by
  have htext : comparisonText (.text "") = comparisonText .null := by
    rw [comparisonText, comparisonText]
    · rfl
    all_goals nofun
  cases test with
  | oneOf => exact absurd rfl h
  | equals | notEquals => simp only [testHolds, htext]
  | contains => simp only [testHolds, containsText, htext]
  | greaterThan | lessThan => simp only [testHolds, comparisonNumber_empty]
  | isEmpty | isNotEmpty | unknown => rfl

theorem testHolds_zero (h : comparesNumbers test = true) (expected : Value) :
    testHolds test (.int 0) expected = testHolds test .null expected := by
  cases test with
  | greaterThan | lessThan => simp only [testHolds, comparisonNumber_zero]
  | _ => cases h

theorem testCalls_empty (h : test ≠ .oneOf) (expected : Value) :
    testCalls test (.text "") expected = testCalls test .null expected := by
  cases test with
  | oneOf => exact absurd rfl h
  | equals | notEquals | contains => simp only [testCalls, textCalls]
  | _ => rfl

/-- A field that is missing counts as the empty text, and as zero where numbers are compared. Whether it is
    one of several values is asked of null. -/
theorem holdsWithin_missing {name : String} (h : snapshot.get name = .null) (expected : Value)
    (room : Nat) :
    (test ≠ .oneOf → holdsWithin snapshot (.leaf test (.text name) expected) room =
      holdsWithin (snapshot.set name (.text "")) (.leaf test (.text name) expected) room) ∧
    (comparesNumbers test = true → holdsWithin snapshot (.leaf test (.text name) expected) room =
      holdsWithin (snapshot.set name (.int 0)) (.leaf test (.text name) expected) room) := by
  have hleaf (s : Snapshot) : holdsWithin s (.leaf test (.text name) expected) room =
      Result.within room nodeCalls (if (Value.text name).truthy then
        Result.within room (testCalls test (s.get name) expected) (testHolds test (s.get name) expected)
      else .ok false) := rfl
  have hset (w : Value) : Fields.get (Fields.set snapshot name w) name = w := by
    rw [Fields.get, Fields.get?_set, if_pos rfl]
    rfl
  constructor
  · intro hother
    rw [hleaf, hleaf, hset, h, testHolds_empty hother, testCalls_empty hother]
  · intro hcompares
    rw [hleaf, hleaf, hset, h, testHolds_zero hcompares, testCalls_of_comparesNumbers hcompares,
      testCalls_of_comparesNumbers hcompares]

/-! ## Malformed nodes -/

/-- The type of a node is none that conditions have. -/
def IsUnknown (type : Value) : Prop :=
  ∀ word, type = .text word → word ≠ "and" ∧ word ≠ "or" ∧ Test.ofWord word = .unknown

/-- A written node that says nothing of a snapshot. -/
inductive IsMalformed : Value → Prop where
  /-- It is no object. -/
  | scalar {v : Value} (hnull : v ≠ .null) (hobject : ∀ fields, v ≠ .object fields) : IsMalformed v
  /-- It is no junction, and names no field. -/
  | fieldless {fields : Fields} (hand : Fields.get fields "type" ≠ .text "and")
      (hor : Fields.get fields "type" ≠ .text "or")
      (hfield : (Fields.get fields "field").truthy = false) : IsMalformed (.object fields)
  /-- It has no type that is known. -/
  | unknown {fields : Fields} (htype : IsUnknown (Fields.get fields "type"))
      (hfield : (Fields.get fields "field").isHashable = true) : IsMalformed (.object fields)

/-- A node that is no junction is a leaf. -/
theorem ofNode_eq_leaf {type : Value} (hand : type ≠ .text "and") (hor : type ≠ .text "or")
    (field value : Value) (parts : Except Value (List Condition)) :
    ∃ test, ofNode type field value parts = .leaf test field value ∧
      (IsUnknown type → test = .unknown) := by
  unfold ofNode
  split
  · exact absurd rfl hand
  · exact absurd rfl hor
  · exact absurd rfl hand
  · exact absurd rfl hor
  · next word _ _ _ _ => exact ⟨.ofWord word, rfl, fun h => (h word rfl).2.2⟩
  · exact ⟨.unknown, rfl, fun _ => rfl⟩

/-- Where there is room to look at it, it does not hold. -/
theorem IsMalformed.holdsWithin (h : IsMalformed v) (snapshot : Snapshot) (hroom : nodeCalls ≤ room) :
    (ofValue v).holdsWithin snapshot room = .ok false := by
  have hwithin (result : Result Bool) : Result.within room nodeCalls result = result := if_pos hroom
  cases h with
  | scalar hnull hobject =>
    cases v with
    | null => exact absurd rfl hnull
    | object fields => exact absurd rfl (hobject fields)
    | _ => exact hwithin _
  | fieldless hand hor hfield =>
    obtain ⟨test, hleaf, -⟩ := ofNode_eq_leaf hand hor _ _ _
    rw [ofValue, hleaf, Condition.holdsWithin, hwithin, hfield]
    rfl
  | @unknown fields htype hfield =>
    have hand : Fields.get fields "type" ≠ .text "and" := fun h => (htype _ h).1 rfl
    have hor : Fields.get fields "type" ≠ .text "or" := fun h => (htype _ h).2.1 rfl
    obtain ⟨test, hleaf, hunknown⟩ := ofNode_eq_leaf hand hor _ _ _
    rw [ofValue, hleaf, hunknown htype, Condition.holdsWithin, hwithin, lookUp_of_hashable hfield]
    split <;> rfl

/-! ## Blocks -/

/-- A value that counts as true and cannot be gone through. -/
def IsUnlistable (v : Value) : Prop :=
  v.truthy = true ∧ (∀ vs, v ≠ .list vs) ∧ (∀ s, v ≠ .text s) ∧ ∀ fields, v ≠ .object fields

/-- The leaves of a block cannot be gone through, or a defective node is reached among them. -/
def BlockBreaks (snapshot : Snapshot) (room : Nat) (block : Value) (fault : Fault) : Prop :=
  (∃ fields, block = .object fields ∧ IsUnlistable (Fields.get fields "conditions") ∧
    fault = .notIterable (Fields.get fields "conditions")) ∨
  ∃ c, ofBlock block = .ok c ∧ Breaks snapshot room c fault

theorem items_eq_error_iff (htruthy : v.truthy = true) :
    v.items = .error fault ↔ IsUnlistable v ∧ fault = .notIterable v := by
  have hlisted {vs : List Value} (h : v.items = .ok vs) (hv : ¬ IsUnlistable v) :
      v.items = .error fault ↔ IsUnlistable v ∧ fault = .notIterable v :=
    iff_of_false (by rw [h]; nofun) fun h => hv h.1
  cases v with
  | list vs => exact hlisted rfl fun h => h.2.1 vs rfl
  | text s => exact hlisted rfl fun h => h.2.2.1 s rfl
  | object fields => exact hlisted rfl fun h => h.2.2.2 fields rfl
  | _ =>
    show Except.error _ = _ ↔ _
    rw [Except.error.injEq]
    exact ⟨fun h => ⟨⟨htruthy, nofun, nofun, nofun⟩, h.symm⟩, fun h => h.2.symm⟩

/-- Only leaves that cannot be gone through keep a block from being a condition. -/
theorem ofBlock_eq_error_iff {block : Value} :
    ofBlock block = .error fault ↔
      ∃ fields, block = .object fields ∧ IsUnlistable (Fields.get fields "conditions") ∧
        fault = .notIterable (Fields.get fields "conditions") := by
  cases block with
  | object fields =>
    -- An empty object holds before its leaves are asked for. It has none, so it need not be told apart.
    have hleaves : ofBlock (.object fields) = .error fault ↔
        (Fields.get fields "conditions").truthy = true ∧
          (Fields.get fields "conditions").items = .error fault := by
      cases fields with
      | nil => exact iff_of_false nofun fun h => nomatch h.1
      | cons entry rest =>
        unfold ofBlock
        simp only
        cases (Fields.get (entry :: rest) "conditions").truthy with
        | false => exact iff_of_false nofun fun h => nomatch h.1
        | true =>
          constructor
          · intro h
            rcases Result.bind_eq_error h with h | ⟨nodes, -, h⟩
            · exact ⟨rfl, h⟩
            · cases h
          · rintro ⟨-, h⟩
            rw [h]
            rfl
    rw [hleaves]
    constructor
    · rintro ⟨htruthy, h⟩
      obtain ⟨hlisted, hfault⟩ := (items_eq_error_iff htruthy).mp h
      exact ⟨fields, rfl, hlisted, hfault⟩
    · rintro ⟨_, ⟨⟩, hlisted, hfault⟩
      exact ⟨hlisted.1, (items_eq_error_iff hlisted.1).mpr ⟨hlisted, hfault⟩⟩
  | _ =>
    refine iff_of_false ?_ fun ⟨_, h, _⟩ => nomatch h
    unfold ofBlock
    split <;> nofun

theorem blockHoldsWithin_eq_error_iff {block : Value} :
    blockHoldsWithin block snapshot room = .error fault ↔ BlockBreaks snapshot room block fault := by
  unfold blockHoldsWithin
  constructor
  · intro h
    rcases Result.bind_eq_error h with h | ⟨c, hc, h⟩
    · exact .inl (ofBlock_eq_error_iff.mp h)
    · exact .inr ⟨c, hc, holdsWithin_eq_error_iff.mp h⟩
  · rintro (hleaves | ⟨c, hc, h⟩)
    · rw [ofBlock_eq_error_iff.mpr hleaves]
      rfl
    · rw [hc]
      exact holdsWithin_eq_error_iff.mpr h

/-! ## All of them -/

/-- There is an answer just if there is no fault. -/
theorem exists_answer_iff {r : Result Bool} {P : Fault → Prop} (h : ∀ fault, r = .error fault ↔ P fault) :
    (∃ b, r = .ok b) ↔ ∀ fault, ¬ P fault := by
  cases r with
  | ok b => exact iff_of_true ⟨b, rfl⟩ fun fault hfault => nomatch (h fault).mpr hfault
  | error fault => exact iff_of_false nofun fun hnone => hnone fault ((h fault).mp rfl)

/-- What a value that was written as a condition, or as a block, comes to on a snapshot, however much room
    there is: an answer, unless a defective node is reached. Malformed nodes do not hold, and missing fields
    are empty or zero. -/
theorem outcomes (written : Value) (snapshot : Snapshot) (room : Nat) :
    ((∃ b, (ofValue written).holdsWithin snapshot room = .ok b) ↔
      ∀ fault, ¬ Breaks snapshot room (ofValue written) fault) ∧
    (∀ fault, (ofValue written).holdsWithin snapshot room = .error fault ↔
      Breaks snapshot room (ofValue written) fault) ∧
    ((∃ b, blockHoldsWithin written snapshot room = .ok b) ↔
      ∀ fault, ¬ BlockBreaks snapshot room written fault) ∧
    (∀ fault, blockHoldsWithin written snapshot room = .error fault ↔
      BlockBreaks snapshot room written fault) ∧
    (IsMalformed written → nodeCalls ≤ room →
      (ofValue written).holdsWithin snapshot room = .ok false) ∧
    ∀ name test expected, snapshot.get name = .null →
      (test ≠ .oneOf → holdsWithin snapshot (.leaf test (.text name) expected) room =
        holdsWithin (snapshot.set name (.text "")) (.leaf test (.text name) expected) room) ∧
      (comparesNumbers test = true → holdsWithin snapshot (.leaf test (.text name) expected) room =
        holdsWithin (snapshot.set name (.int 0)) (.leaf test (.text name) expected) room) :=
  ⟨exists_answer_iff fun _ => holdsWithin_eq_error_iff, fun _ => holdsWithin_eq_error_iff,
    exists_answer_iff fun _ => blockHoldsWithin_eq_error_iff, fun _ => blockHoldsWithin_eq_error_iff,
    fun h => h.holdsWithin snapshot, fun _ _ expected h => holdsWithin_missing h expected room⟩

/-- A node without a field, and a snapshot without a note. -/
theorem outcomes_fieldless :
    (∃ b, (ofValue (.object [("type", .text "equals")])).holdsWithin [] callRoom = .ok b) ∧
      (ofValue (.object [("type", .text "equals")])).holdsWithin [] callRoom = .ok false ∧
      holdsWithin [] (.leaf .equals (.text "note") .null) callRoom =
        holdsWithin [("note", .text "")] (.leaf .equals (.text "note") .null) callRoom ∧
      holdsWithin [("note", .text "")] (.leaf .equals (.text "note") .null) callRoom = .ok true := by
  obtain ⟨-, -, -, -, hmalformed, hmissing⟩ := outcomes (.object [("type", .text "equals")]) [] callRoom
  have hfalse := hmalformed (.fieldless (by simp [Fields.get, Fields.get?])
    (by simp [Fields.get, Fields.get?]) rfl) (by decide)
  have hempty := (hmissing "note" .equals .null rfl).1 (by decide)
  exact ⟨⟨false, hfalse⟩, hfalse, hempty, by with_unfolding_all rfl⟩

/-- Parts that are a number, a field that is a list, and an integer of four hundred digits are each met
    without an answer. -/
theorem left_unanswered :
    (ofValue (.object [("type", .text "and"), ("conditions", .int 5)])).holds [] =
      .error (.notIterable (.int 5)) ∧
    (ofValue (.object [("type", .text "equals"), ("field", .list [.text "total"])])).holds [] =
      .error (.unhashable (.list [.text "total"])) ∧
    (ofValue (.object [("type", .text "greater_than"), ("field", .text "total"),
      ("value", .int 0)])).holds [("total", .int (Int.pow 10 400))] = .error .intTooLarge := by
  refine ⟨rfl, rfl, ?_⟩
  have hlarge : Value.IsTooLarge (.int (Int.pow 10 400)) := ⟨_, rfl, by decide +kernel⟩
  exact leaf_eq_error_iff.mpr (.tooLarge (by decide) rfl rfl rfl (.inl hlarge))

end Signoff.Condition
