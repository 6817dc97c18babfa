import McpRuntime.Python.CanonicalJson

/-!
# Equality of JSON values

Two JSON values are equal when their texts, their items and what their keys are
bound to are, and numbers when they stand for the same number. `==` of Python
takes a boolean for the number it converts to; the data model of JSON does not.

* `Json.equalWith`: both equalities, which compare objects as tables;
  `equalWith_trans`, `equalWith_symm`.
* `Json.same_get`, `Json.same_arr`: the parts of values with the same canonical
  form.
* `Json.Same.equalWith`, `Json.equalWith_sorted`: values with the same canonical form
  are equal, and a value is equal to its canonical form.
* `Json.Alike`: two presentations of a value, and what their parts are.
-/

namespace McpRuntime

namespace Json

/-- `document.get(key)` of a `dict`, which is `None` for a missing key. -/
def pyGet (key : Text) (members : List (Text × Json)) : Json := (get key members).getD .null

/-- The number that a JSON number stands for. -/
def number : Json → Option ℚ
  | int n => some n
  | float x => if x.isFinite then some x.toRat else none
  | _ => none

/-- What a value that is no container is compared by. -/
inductive Scalar
  | null
  | bool (b : Bool)
  | number (q : ℚ)
  | special (x : PyFloat)
  | text (t : Text)
  deriving DecidableEq

/-- The scalar of a value that is no container, where `boolNumber` says whether
    a boolean is a number. -/
def scalar (boolNumber : Bool) : Json → Option Scalar
  | null => some .null
  | bool b => some (if boolNumber then .number (if b then 1 else 0) else .bool b)
  | int n => some (.number n)
  | float x => some (if x.isFinite then .number x.toRat else .special x)
  | str t => some (.text t)
  | arr _ | obj _ => none

/-- Whether two values are equal: scalars by what they stand for, arrays item by
    item and objects key by key. -/
def equalWith (boolNumber : Bool) : Json → Json → Bool
  | arr items, arr items' => itemsEqual items items'
  | obj members, obj members' => members.length = members'.length && membersEqual members members'
  | a, b =>
    match a.scalar boolNumber, b.scalar boolNumber with
    | some x, some y => x = y
    | _, _ => false
where
  itemsEqual : List Json → List Json → Bool
    | [], [] => true
    | j :: items, j' :: items' => equalWith boolNumber j j' && itemsEqual items items'
    | _, _ => false
  membersEqual : List (Text × Json) → List (Text × Json) → Bool
    | [], _ => true
    | (key, j) :: members, members' =>
      (match get key members' with
        | some j' => equalWith boolNumber j j'
        | none => false) && membersEqual members members'

/-- `a == b` of Python. -/
abbrev pyEq : Json → Json → Bool := equalWith true

/-- Equal in the data model of JSON. -/
abbrev Equal (a b : Json) : Prop := equalWith false a b = true

variable {f : Bool}

/-- What a key is bound to, by the first member with the key. -/
theorem get_cons (key : Text) (m : Text × Json) (members : List (Text × Json)) :
    get key (m :: members) = if key = m.1 then some m.2 else get key members := by
  rw [get, List.lookup_cons]
  by_cases h : key = m.1
  · simp [h]
  · rw [if_neg h, beq_false_of_ne h]
    rfl

/-- A key bound to a value is a member. -/
theorem mem_of_get {key : Text} {members : List (Text × Json)} {j : Json}
    (h : get key members = some j) : (key, j) ∈ members := by
  induction members with
  | nil => cases h
  | cons m members ih =>
    rw [get_cons] at h
    split_ifs at h with hkey
    · rw [hkey, ← Option.some.inj h]
      exact List.mem_cons_self
    · exact List.mem_cons_of_mem _ (ih h)

/-- A member is what its key is bound to, as the keys are distinct. -/
theorem get_of_mem {members : List (Text × Json)} (hnodup : (members.map Prod.fst).Nodup)
    {m : Text × Json} (hm : m ∈ members) : get m.1 members = some m.2 := by
  induction members with
  | nil => cases hm
  | cons m' members ih =>
    rw [List.map_cons, List.nodup_cons] at hnodup
    rw [get_cons]
    rcases List.mem_cons.1 hm with rfl | hm
    · exact if_pos rfl
    · have hne : m.1 ≠ m'.1 := fun h => hnodup.1 (h ▸ List.mem_map_of_mem hm)
      rw [if_neg hne]
      exact ih hnodup.2 hm

/-- Arrays are equal when their items are, one by one. -/
theorem equalWith_arr {items items' : List Json} :
    equalWith f (arr items) (arr items') ↔
      items.Forall₂ (fun j j' => equalWith f j j' = true) items' := by
  rw [equalWith]
  induction items generalizing items' with
  | nil => cases items' <;> simp [equalWith.itemsEqual]
  | cons j items ih => cases items' <;> simp [equalWith.itemsEqual, ih]

/-- Objects are equal when they have as many members and each member of the one
    has an equal value in the other. -/
theorem equalWith_obj {members members' : List (Text × Json)} :
    equalWith f (obj members) (obj members') ↔ members.length = members'.length ∧
      ∀ m ∈ members, ∃ j', get m.1 members' = some j' ∧ equalWith f m.2 j' = true := by
  rw [equalWith, Bool.and_eq_true, decide_eq_true_iff]
  refine and_congr .rfl ?_
  induction members with
  | nil => simp [equalWith.membersEqual]
  | cons m members ih =>
    obtain ⟨key, j⟩ := m
    rw [equalWith.membersEqual, Bool.and_eq_true, ih, List.forall_mem_cons]
    refine and_congr_left fun _ => ?_
    cases get key members' <;> simp

/-- A scalar is equal to the values with the same scalar. -/
theorem equalWith_scalar {a b : Json} {x : Scalar} (ha : a.scalar f = some x) :
    equalWith f a b ↔ b.scalar f = some x := by
  cases a with
  | arr | obj => cases ha
  | null | bool | int | float | str =>
    rw [equalWith, ha]
    · cases b.scalar f <;> simp [eq_comm]
    all_goals exact nofun

/-- Equality is symmetric with the scalars. -/
theorem equalWith_scalar_right {a b : Json} {x : Scalar} (hb : b.scalar f = some x) :
    equalWith f a b ↔ a.scalar f = some x := by
  cases a with
  | arr | obj =>
    cases b with
    | arr | obj => cases hb
    | null | bool | int | float | str => exact iff_of_false Bool.false_ne_true nofun
  | null | bool | int | float | str =>
    rw [equalWith_scalar rfl, hb]
    exact eq_comm

/-- Only a text has the scalar of a text. -/
theorem scalar_eq_text {j : Json} {t : Text} : j.scalar f = some (.text t) ↔ j = .str t := by
  cases j with
  | str t' => simp [scalar]
  | float x => cases h : x.isFinite <;> simp [scalar, h]
  | bool b => cases f <;> simp [scalar]
  | null | int | arr | obj => simp [scalar]

/-- Equality is transitive. -/
theorem equalWith_trans {a b c : Json} (hab : equalWith f a b) (hbc : equalWith f b c) :
    equalWith f a c := by
  induction a using Json.induct generalizing b c with
  | null | bool | int | float | str =>
    rw [equalWith_scalar rfl] at hab ⊢
    exact (equalWith_scalar hab).1 hbc
  | arr items ih =>
    cases b with
    | arr items' =>
      cases c with
      | arr items'' =>
        rw [equalWith_arr] at hab hbc ⊢
        induction hab generalizing items'' with
        | nil => exact hbc
        | cons h _ ih' =>
          rw [List.forall_mem_cons] at ih
          cases hbc with
          | cons h' ht => exact .cons (ih.1 h h') (ih' ih.2 _ ht)
      | obj => cases hbc
      | null | bool | int | float | str => cases (equalWith_scalar_right rfl).1 hbc
    | obj => cases hab
    | null | bool | int | float | str => cases (equalWith_scalar_right rfl).1 hab
  | obj members ih =>
    cases b with
    | obj members' =>
      cases c with
      | obj members'' =>
        rw [equalWith_obj] at hab hbc ⊢
        -- Members are looked up by their keys, so their order does not matter.
        refine ⟨hab.1.trans hbc.1, fun m hm => ?_⟩
        obtain ⟨j', hj', h⟩ := hab.2 m hm
        obtain ⟨j'', hj'', h'⟩ := hbc.2 (m.1, j') (mem_of_get hj')
        exact ⟨j'', hj'', ih m hm h h'⟩
      | arr => cases hbc
      | null | bool | int | float | str => cases (equalWith_scalar_right rfl).1 hbc
    | arr => cases hab
    | null | bool | int | float | str => cases (equalWith_scalar_right rfl).1 hab

/-! ## The canonical form -/

theorem same_iff {a b : Json} : a.Same b ↔ a.sorted = b.sorted := .rfl

theorem Same.symm {a b : Json} (h : a.Same b) : b.Same a := Eq.symm h

theorem Same.trans {a b c : Json} (h : a.Same b) (h' : b.Same c) : a.Same c := Eq.trans h h'

/-- A scalar has no other canonical form. -/
theorem Same.eq_of_scalar {a b : Json} {x : Scalar} (ha : a.scalar f = some x) (h : a.Same b) :
    a = b := by
  rw [same_iff] at h
  cases a with
  | arr | obj => cases ha
  | null | bool | int | float | str =>
    cases b with
    | arr items => rw [sorted_arr] at h; cases h
    | obj members => rw [sorted_obj] at h; cases h
    | null | bool | int | float | str => exact h

/-- What has the canonical form of an array is an array whose items have the
    canonical forms of its items. -/
theorem same_arr {items : List Json} {b : Json} (h : (arr items).Same b) :
    ∃ items', b = arr items' ∧ items.Forall₂ Same items' := by
  rw [same_iff, sorted_arr] at h
  cases b with
  | arr items' =>
    rw [sorted_arr, arr.injEq] at h
    have hforall : (items.map sorted).Forall₂ Eq (items'.map sorted) := by
      rw [h]
      exact List.forall₂_same.2 fun _ _ => rfl
    rw [List.forall₂_map_left_iff, List.forall₂_map_right_iff] at hforall
    exact ⟨items', rfl, hforall⟩
  | obj members => rw [sorted_obj] at h; cases h
  | null | bool | int | float | str => rw [sorted] at h; cases h

/-- What has the canonical form of an object is an object with its members, up
    to the canonical forms of the values. -/
theorem same_obj {members : List (Text × Json)} {b : Json} (h : (obj members).Same b) :
    ∃ members', b = obj members' ∧ (members.map fun m => (m.1, m.2.sorted)).Perm
      (members'.map fun m => (m.1, m.2.sorted)) := by
  rw [same_iff, sorted_obj] at h
  cases b with
  | obj members' =>
    rw [sorted_obj, obj.injEq] at h
    exact ⟨members', rfl, (sortMembers_perm _).symm.trans (h ▸ sortMembers_perm _)⟩
  | arr items => rw [sorted_arr] at h; cases h
  | null | bool | int | float | str => rw [sorted] at h; cases h

/-- A key of an object is bound to values of one canonical form in objects with
    one canonical form. -/
theorem same_get {members members' : List (Text × Json)} (h : (obj members).Same (obj members'))
    (hnodup : (members'.map Prod.fst).Nodup) {key : Text} {j : Json} (hj : get key members = some j) :
    ∃ j', get key members' = some j' ∧ j.Same j' := by
  obtain ⟨_, hmembers, hperm⟩ := same_obj h
  cases hmembers
  have hmem : (key, j.sorted) ∈ members'.map fun m => (m.1, m.2.sorted) :=
    hperm.subset (List.mem_map.2 ⟨_, mem_of_get hj, rfl⟩)
  obtain ⟨m, hm, heq⟩ := List.mem_map.1 hmem
  rw [Prod.mk.injEq] at heq
  exact ⟨m.2, heq.1 ▸ get_of_mem hnodup hm, heq.2.symm⟩

/-- Values with one canonical form are equal. -/
theorem Same.equalWith {a b : Json} (h : a.Same b) (hb : b.WellFormed) :
    Json.equalWith f a b := by
  induction a using Json.induct generalizing b with
  | null | bool | int | float | str =>
    rw [← h.eq_of_scalar (f := f) rfl]
    exact (equalWith_scalar rfl).2 rfl
  | arr items ih =>
    obtain ⟨items', rfl, hitems⟩ := same_arr h
    rw [wellFormed_arr] at hb
    rw [equalWith_arr]
    clear h
    induction hitems with
    | nil => exact .nil
    | cons h _ ih' =>
      rw [List.forall_mem_cons] at ih hb
      exact .cons (ih.1 h hb.1) (ih' ih.2 hb.2)
  | obj members ih =>
    obtain ⟨members', rfl, hperm⟩ := same_obj h
    rw [wellFormed_obj] at hb
    rw [equalWith_obj]
    refine ⟨by simpa using hperm.length_eq, fun m hm => ?_⟩
    have hmem : (m.1, m.2.sorted) ∈ members'.map fun m => (m.1, m.2.sorted) :=
      hperm.subset (List.mem_map.2 ⟨m, hm, rfl⟩)
    obtain ⟨m', hm', heq⟩ := List.mem_map.1 hmem
    rw [Prod.mk.injEq] at heq
    exact ⟨m'.2, heq.1 ▸ get_of_mem hb.1 hm', ih m hm heq.2.symm (hb.2 m' hm')⟩

/-- The canonical form of a well-formed value is well formed. -/
theorem wellFormed_sorted {a : Json} (h : a.WellFormed) : a.sorted.WellFormed := by
  induction a using Json.induct with
  | null | bool | int | float | str => exact h
  | arr items ih =>
    rw [wellFormed_arr] at h
    rw [sorted_arr, wellFormed_arr, List.forall_mem_map]
    exact fun j hj => ih j hj (h j hj)
  | obj members ih =>
    rw [wellFormed_obj] at h
    rw [sorted_obj, wellFormed_obj]
    have hperm := sortMembers_perm (members.map fun m => (m.1, m.2.sorted))
    refine ⟨((hperm.map Prod.fst).nodup_iff).2 ?_, fun m hm => ?_⟩
    · rw [List.map_map]
      exact h.1
    · obtain ⟨m', hm', rfl⟩ := List.mem_map.1 (hperm.mem_iff.1 hm)
      exact ih m' hm' (h.2 m' hm')

/-- A value is equal to its canonical form. -/
theorem equalWith_sorted {a : Json} (h : a.WellFormed) : equalWith f a a.sorted := by
  induction a using Json.induct with
  | null | bool | int | float | str => exact (equalWith_scalar rfl).2 rfl
  | arr items ih =>
    rw [wellFormed_arr] at h
    rw [sorted_arr, equalWith_arr, List.forall₂_map_right_iff, List.forall₂_same]
    exact fun j hj => ih j hj (h j hj)
  | obj members ih =>
    have hsorted := wellFormed_sorted h
    rw [wellFormed_obj] at h
    rw [sorted_obj, wellFormed_obj] at hsorted
    have hperm := sortMembers_perm (members.map fun m => (m.1, m.2.sorted))
    rw [sorted_obj, equalWith_obj]
    refine ⟨by rw [hperm.length_eq, List.length_map], fun m hm => ⟨m.2.sorted, ?_, ih m hm (h.2 m hm)⟩⟩
    exact get_of_mem (m := (m.1, m.2.sorted)) hsorted.1
      (hperm.mem_iff.2 (List.mem_map.2 ⟨m, hm, rfl⟩))

/-- Equality is symmetric where the keys on the left are distinct: as many
    distinct keys, which the other has, are all of its keys. -/
theorem equalWith_symm {a b : Json} (ha : a.WellFormed) (h : equalWith f a b) :
    equalWith f b a := by
  induction a using Json.induct generalizing b with
  | null | bool | int | float | str =>
    rw [equalWith_scalar rfl] at h
    exact (equalWith_scalar h).2 rfl
  | arr items ih =>
    cases b with
    | arr items' =>
      rw [wellFormed_arr] at ha
      rw [equalWith_arr] at h ⊢
      induction h with
      | nil => exact .nil
      | cons h _ ih' =>
        rw [List.forall_mem_cons] at ih ha
        exact .cons (ih.1 ha.1 h) (ih' ih.2 ha.2)
    | obj => cases h
    | null | bool | int | float | str => cases (equalWith_scalar_right rfl).1 h
  | obj members ih =>
    cases b with
    | obj members' =>
      rw [wellFormed_obj] at ha
      rw [equalWith_obj] at h ⊢
      -- As many distinct keys, all of which the other has, are its keys.
      have hsub : members.map Prod.fst ⊆ members'.map Prod.fst := fun key hkey => by
        obtain ⟨m, hm, rfl⟩ := List.mem_map.1 hkey
        obtain ⟨j', hj', -⟩ := h.2 m hm
        exact List.mem_map.2 ⟨_, mem_of_get hj', rfl⟩
      have hperm : (members.map Prod.fst).Perm (members'.map Prod.fst) :=
        (List.subperm_of_subset ha.1 hsub).perm_of_length_le (by simp [h.1])
      refine ⟨h.1.symm, fun m' hm' => ?_⟩
      obtain ⟨m, hm, hkey⟩ := List.mem_map.1 (hperm.mem_iff.2 (List.mem_map_of_mem hm'))
      obtain ⟨j', hj', heq⟩ := h.2 m hm
      rw [hkey, get_of_mem (hperm.nodup_iff.1 ha.1) hm', Option.some.injEq] at hj'
      subst hj'
      exact ⟨m.2, hkey ▸ get_of_mem ha.1 hm, ih m hm (ha.2 m hm) heq⟩
    | arr => cases h
    | null | bool | int | float | str => cases (equalWith_scalar_right rfl).1 h

/-! ## Two presentations of one value -/

/-- Two well-formed values with one canonical form. -/
structure Alike (a b : Json) : Prop where
  left : a.WellFormed
  right : b.WellFormed
  same : a.Same b

theorem Alike.symm {a b : Json} (h : Alike a b) : Alike b a := ⟨h.right, h.left, h.same.symm⟩

/-- A scalar has one presentation. -/
theorem Alike.eq_of_scalar {a b : Json} {x : Scalar} (h : Alike a b) (ha : a.scalar f = some x) :
    b = a := (h.same.eq_of_scalar ha).symm

/-- The items of two presentations of an array. -/
theorem alike_arr {items : List Json} {b : Json} (h : Alike (arr items) b) :
    ∃ items', b = arr items' ∧ items.Forall₂ Alike items' := by
  obtain ⟨items', rfl, hitems⟩ := same_arr h.same
  obtain ⟨ha, hb, -⟩ := h
  rw [wellFormed_arr] at ha hb
  refine ⟨items', rfl, ?_⟩
  induction hitems with
  | nil => exact .nil
  | cons hsame _ ih =>
    rw [List.forall_mem_cons] at ha hb
    exact .cons ⟨ha.1, hb.1, hsame⟩ (ih ha.2 hb.2)

theorem alike_obj {members : List (Text × Json)} {b : Json} (h : Alike (obj members) b) :
    ∃ members', b = obj members' ∧ Alike (obj members) (obj members') := by
  obtain ⟨members', rfl, -⟩ := same_obj h.same
  exact ⟨members', rfl, h⟩

/-- A member of an object is a member of its other presentations. -/
theorem Alike.mem {members members' : List (Text × Json)} (h : Alike (obj members) (obj members'))
    {m : Text × Json} (hm : m ∈ members) : ∃ j, (m.1, j) ∈ members' ∧ Alike m.2 j := by
  obtain ⟨ha, hb, hsame⟩ := h
  rw [wellFormed_obj] at ha hb
  obtain ⟨j, hj, hsame⟩ := same_get hsame hb.1 (get_of_mem ha.1 hm)
  exact ⟨j, mem_of_get hj, ha.2 m hm, hb.2 _ (mem_of_get hj), hsame⟩

theorem Alike.length_eq {members members' : List (Text × Json)}
    (h : Alike (obj members) (obj members')) : members.length = members'.length := by
  obtain ⟨_, hmembers, hperm⟩ := same_obj h.same
  cases hmembers
  simpa using hperm.length_eq

/-- A key is bound to two presentations of one value. -/
theorem Alike.get {members members' : List (Text × Json)} (h : Alike (obj members) (obj members'))
    {key : Text} {j : Json} (hj : Json.get key members = some j) :
    ∃ j', Json.get key members' = some j' ∧ Alike j j' := by
  obtain ⟨j', hmem, hsame⟩ := h.mem (mem_of_get hj)
  exact ⟨j', get_of_mem (wellFormed_obj.1 h.right).1 hmem, hsame⟩

theorem Alike.get_eq_none {members members' : List (Text × Json)}
    (h : Alike (obj members) (obj members')) {key : Text} (hj : Json.get key members = none) :
    Json.get key members' = none := by
  cases hget : Json.get key members' with
  | none => rfl
  | some j =>
    obtain ⟨_, hj', -⟩ := h.symm.get hget
    cases hj.symm.trans hj'

theorem Alike.pyGet {members members' : List (Text × Json)}
    (h : Alike (obj members) (obj members')) (key : Text) :
    Alike (pyGet key members) (pyGet key members') := by
  rw [Json.pyGet, Json.pyGet]
  cases hj : Json.get key members with
  | none =>
    rw [h.get_eq_none hj]
    exact ⟨trivial, trivial, rfl⟩
  | some j =>
    obtain ⟨j', hj', halike⟩ := h.get hj
    rw [hj']
    exact halike

/-- A key that is bound to a scalar is bound to it in every presentation. -/
theorem Alike.pyGet_eq {members members' : List (Text × Json)}
    (h : Alike (obj members) (obj members')) {key : Text} {j : Json} {x : Scalar}
    (hscalar : j.scalar f = some x) : Json.pyGet key members = j ↔ Json.pyGet key members' = j := by
  refine ⟨fun hj => ?_, fun hj => ?_⟩
  · have halike := h.pyGet key
    rw [hj] at halike
    exact halike.eq_of_scalar hscalar
  · have halike := h.symm.pyGet key
    rw [hj] at halike
    exact halike.eq_of_scalar hscalar

/-- Presentations of one value stand for one number. -/
theorem Alike.number_eq {a b : Json} (h : Alike a b) : a.number = b.number := by
  cases a with
  | null | bool | int | float | str => rw [h.eq_of_scalar (f := true) rfl]
  | arr items =>
    obtain ⟨_, rfl, -⟩ := alike_arr h
    rfl
  | obj members =>
    obtain ⟨_, rfl, -⟩ := alike_obj h
    rfl

/-- Presentations of equal values are equal. -/
theorem Alike.equalWith_iff {a a' b b' : Json} (ha : Alike a a') (hb : Alike b b') :
    Json.equalWith f a b ↔ Json.equalWith f a' b' := by
  refine ⟨fun h => ?_, fun h => ?_⟩
  · exact equalWith_trans (ha.same.symm.equalWith ha.left)
      (equalWith_trans h (hb.same.equalWith hb.right))
  · exact equalWith_trans (ha.same.equalWith ha.right)
      (equalWith_trans h (hb.same.symm.equalWith hb.left))

end Json

end McpRuntime
