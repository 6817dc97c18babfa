import McpRuntime.Python.JsonEquality

/-!
# Fields of documents

Documents that are built alike, field by field, and have one canonical form have
one canonical form in each of their fields (`same_members`). They have one
canonical form if they have one text, where their fields differ in finite values
only (`Cancels`): the text of a number that is not finite tells nothing.
-/

namespace McpRuntime

namespace Json

@[simp] theorem same_str {t t' : Text} : (str t).Same (str t') ↔ t = t' :=
  ⟨fun h => str.inj h, congrArg fun t => (str t).sorted⟩

@[simp] theorem same_bool {b b' : Bool} : (bool b).Same (bool b') ↔ b = b' :=
  ⟨fun h => bool.inj h, congrArg fun b => (bool b).sorted⟩

@[simp] theorem same_int {n n' : ℤ} : (int n).Same (int n') ↔ n = n' :=
  ⟨fun h => int.inj h, congrArg fun n => (int n).sorted⟩

@[simp] theorem same_float {x x' : PyFloat} : (float x).Same (float x') ↔ x = x' :=
  ⟨fun h => float.inj h, congrArg fun x => (float x).sorted⟩

/-- Objects with the same keys, in the same order, have one canonical form only if
    their values do. -/
theorem same_members {members members' : List (Text × Json)} (h : (obj members).Same (obj members'))
    (hkeys : members.map Prod.fst = members'.map Prod.fst) (hnodup : (members'.map Prod.fst).Nodup) :
    members.Forall₂ (fun m m' => m.2.Same m'.2) members' := by
  have hlength : members.length = members'.length := by
    have := congrArg List.length hkeys
    rwa [List.length_map, List.length_map] at this
  refine List.forall₂_iff_get.2 ⟨hlength, fun i hi hi' => ?_⟩
  have hkey : (members.get ⟨i, hi⟩).1 = (members'.get ⟨i, hi'⟩).1 := by
    simpa [hi, hi'] using congrArg (fun keys => keys[i]?) hkeys
  obtain ⟨j, hj, hsame⟩ := same_get h hnodup (get_of_mem (hkeys ▸ hnodup) (List.get_mem members ⟨i, hi⟩))
  rw [hkey, get_of_mem hnodup (List.get_mem members' ⟨i, hi'⟩)] at hj
  rwa [Option.some.inj hj]

/-- Arrays of documents have one canonical form only if they are equal, where a
    document determines what it is made of. -/
theorem map_eq_of_same {α : Type} {document : α → Json} {l l' : List α}
    (hinj : ∀ a ∈ l, ∀ a' ∈ l', (document a).Same (document a') → a = a')
    (h : (arr (l.map document)).Same (arr (l'.map document))) : l = l' := by
  rw [Same, sorted_arr, sorted_arr, List.map_map, List.map_map] at h
  have hmap := Json.arr.inj h
  have hlength : l.length = l'.length := by
    have := congrArg List.length hmap
    rwa [List.length_map, List.length_map] at this
  refine List.ext_getElem hlength fun i hi hi' => ?_
  refine hinj _ (List.getElem_mem hi) _ (List.getElem_mem hi') ?_
  have hget := congrArg (fun items => items[i]?) hmap
  simpa [Same, hi, hi'] using hget

/-- Arrays of two documents of the same items have one canonical form only if the
    documents do. -/
theorem same_of_map {α : Type} {document document' : α → Json} {l : List α}
    (h : (arr (l.map document)).Same (arr (l.map document'))) :
    ∀ a ∈ l, (document a).Same (document' a) := by
  rw [Same, sorted_arr, sorted_arr, List.map_map, List.map_map] at h
  exact List.map_inj_left.1 (Json.arr.inj h)

/-- Items that are related, and have the same keys, are related when they are sorted by
    these. -/
theorem forall₂_sortMembers {R : Text × Json → Text × Json → Prop}
    {members members' : List (Text × Json)} (hkeys : ∀ m m', R m m' → m.1 = m'.1)
    (h : members.Forall₂ R members') : (sortMembers members).Forall₂ R (sortMembers members') := by
  obtain ⟨hlength, hzip⟩ := List.forall₂_iff_zip.1 h
  have hmap (f : (Text × Json) × (Text × Json) → Text × Json)
      (hf : ∀ p ∈ members.zip members', (f p).1 = p.1.1) :
      ((members.zip members').insertionSort fun p q => p.1.1 ≤ q.1.1).map f =
        sortMembers ((members.zip members').map f) :=
    List.map_insertionSort _ _ f _ fun p hp q hq => by rw [hf p hp, hf q hq]
  have hfirst := hmap Prod.fst fun _ _ => rfl
  have hsecond := hmap Prod.snd fun p hp => (hkeys _ _ (hzip hp)).symm
  rw [List.map_fst_zip hlength.le] at hfirst
  rw [List.map_snd_zip hlength.ge] at hsecond
  rw [← hfirst, ← hsecond, List.forall₂_map_left_iff, List.forall₂_map_right_iff, List.forall₂_same]
  exact fun p hp => hzip ((List.mem_insertionSort _).1 hp)

end Json

/-! ## Documents with one text -/

namespace JsonWriter

variable {w : JsonWriter} {a b : Json}

/-- Values that have one text, whatever follows it, are equal. -/
def Cancels (w : JsonWriter) (a b : Json) : Prop :=
  ∀ s s', Delimited s → Delimited s' → w.render a ++ s = w.render b ++ s' → a = b ∧ s = s'

theorem Cancels.refl (a : Json) : Cancels w a a :=
  fun _ _ _ _ h => ⟨rfl, List.append_cancel_left h⟩

/-- Finite values can be told from their texts. -/
theorem Cancels.of_finite (ha : a.allFinite) (hb : b.allFinite) :
    Cancels w a.sorted b.sorted := fun s s' hs hs' h =>
  render_append_inj w a.sorted b.sorted s s' (Json.allFinite_sorted ha) (Json.allFinite_sorted hb)
    hs hs' h

theorem renderItems_cancel {items items' : List Json} (h : items.Forall₂ (Cancels w) items')
    {s s' : Text} (he : render.renderItems w items ++ s = render.renderItems w items' ++ s') :
    items = items' ∧ s = s' := by
  induction h with
  | nil => exact ⟨rfl, List.append_cancel_left he⟩
  | cons hcancels _ ih =>
    rw [render.renderItems, render.renderItems, List.cons_append, List.cons_append,
      List.append_assoc, List.append_assoc] at he
    obtain ⟨rfl, hrest⟩ := hcancels _ _ (delimited_renderItems _ _) (delimited_renderItems _ _)
      (List.cons.inj he).2
    obtain ⟨rfl, hs⟩ := ih hrest
    exact ⟨rfl, hs⟩

/-- Arrays whose items can be told apart. -/
theorem Cancels.arr {items items' : List Json} (h : items.Forall₂ (Cancels w) items') :
    Cancels w (.arr items) (.arr items') := by
  intro s s' _ _ he
  cases h with
  | nil => exact ⟨rfl, List.append_cancel_left he⟩
  | cons hcancels hrest =>
    rw [render, render, List.cons_append, List.cons_append, List.append_assoc,
      List.append_assoc] at he
    obtain ⟨rfl, hitems⟩ := hcancels _ _ (delimited_renderItems _ _) (delimited_renderItems _ _)
      (List.cons.inj he).2
    obtain ⟨rfl, hs⟩ := renderItems_cancel hrest hitems
    exact ⟨rfl, hs⟩

/-- Members with the same keys, whose values can be told apart. -/
def CancelsMember (w : JsonWriter) (m m' : Text × Json) : Prop := m.1 = m'.1 ∧ Cancels w m.2 m'.2

/-- A member with the same key can be told apart when its value can. -/
theorem CancelsMember.append_inj {m m' : Text × Json} (h : CancelsMember w m m') {s s' : Text}
    (hs : Delimited s) (hs' : Delimited s')
    (he : quoted m.1 ++ 58 :: (w.render m.2 ++ s) = quoted m'.1 ++ 58 :: (w.render m'.2 ++ s')) :
    m = m' ∧ s = s' := by
  obtain ⟨-, hvalue⟩ := quoted_append_inj he
  obtain ⟨hj, hrest⟩ := h.2 s s' hs hs' (List.cons.inj hvalue).2
  exact ⟨Prod.ext h.1 hj, hrest⟩

theorem renderMembers_cancel {members members' : List (Text × Json)}
    (h : members.Forall₂ (CancelsMember w) members') {s s' : Text}
    (he : render.renderMembers w members ++ s = render.renderMembers w members' ++ s') :
    members = members' ∧ s = s' := by
  induction h with
  | nil => exact ⟨rfl, List.append_cancel_left he⟩
  | cons hcancels _ ih =>
    rw [render.renderMembers, render.renderMembers, List.cons_append, List.cons_append,
      List.cons_append, List.cons_append, List.append_assoc, List.append_assoc, List.cons_append,
      List.cons_append, List.append_assoc, List.append_assoc] at he
    obtain ⟨rfl, hrest⟩ := hcancels.append_inj (delimited_renderMembers _ _)
      (delimited_renderMembers _ _) (List.cons.inj (List.cons.inj he).2).2
    obtain ⟨rfl, hs⟩ := ih hrest
    exact ⟨rfl, hs⟩

/-- Objects with the same keys, whose values can be told apart. -/
theorem Cancels.obj {members members' : List (Text × Json)}
    (h : members.Forall₂ (CancelsMember w) members') : Cancels w (.obj members) (.obj members') := by
  intro s s' _ _ he
  cases h with
  | nil => exact ⟨rfl, List.append_cancel_left he⟩
  | cons hcancels hrest =>
    rw [render, render] at he
    simp only [List.cons_append, List.append_assoc] at he
    obtain ⟨rfl, hmembers⟩ := hcancels.append_inj (delimited_renderMembers _ _)
      (delimited_renderMembers _ _) (List.cons.inj (List.cons.inj he).2).2
    obtain ⟨rfl, hs⟩ := renderMembers_cancel hrest hmembers
    exact ⟨rfl, hs⟩

/-- Arrays whose canonical items can be told apart. -/
theorem Cancels.sorted_arr {items items' : List Json}
    (h : items.Forall₂ (fun j j' => Cancels w j.sorted j'.sorted) items') :
    Cancels w (Json.arr items).sorted (Json.arr items').sorted := by
  rw [Json.sorted_arr, Json.sorted_arr]
  exact .arr (List.forall₂_map_left_iff.2 (List.forall₂_map_right_iff.2 h))

/-- Objects with the same keys, whose canonical values can be told apart. -/
theorem Cancels.sorted_obj {members members' : List (Text × Json)}
    (h : members.Forall₂ (fun m m' => m.1 = m'.1 ∧ Cancels w m.2.sorted m'.2.sorted) members') :
    Cancels w (Json.obj members).sorted (Json.obj members').sorted := by
  rw [Json.sorted_obj, Json.sorted_obj]
  exact .obj (Json.forall₂_sortMembers (fun _ _ => And.left)
    (List.forall₂_map_left_iff.2 (List.forall₂_map_right_iff.2 h)))

/-- Values with one text have one canonical form. -/
theorem Cancels.same (h : Cancels w a.sorted b.sorted)
    (he : w.render a.sorted = w.render b.sorted) : a.Same b :=
  (h [] [] nofun nofun (by rw [he])).1

end JsonWriter

end McpRuntime
