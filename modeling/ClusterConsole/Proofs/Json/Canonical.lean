import ClusterConsole.Json.Value

/-! The canonical form of a value. The members of its objects ascend by name, so that no name
stands twice, and a value of this form is left as it is. -/

namespace ClusterConsole.Json

variable {name : String} {value v : Json} {m : String × Json}
  {members sorted : List (String × Json)} {items : List Json}

/-! ### Sorting members -/

/-- Each name comes before those of the members after it. -/
def Ascending (members : List (String × Json)) : Prop := members.Pairwise fun m m' => m.1 < m'.1

theorem mem_insertMember (h : m ∈ insertMember name value members) :
    m = (name, value) ∨ m ∈ members := by
  induction members with
  | nil => exact .inl (List.mem_singleton.1 h)
  | cons n rest ih =>
    unfold insertMember at h
    split at h
    · exact List.mem_cons.1 h
    split at h
    · rcases List.mem_cons.1 h with rfl | h
      · exact .inr List.mem_cons_self
      · exact (ih h).imp id (List.mem_cons_of_mem n)
    · exact (List.mem_cons.1 h).imp id (List.mem_cons_of_mem n)

theorem ascending_insertMember (h : Ascending members) :
    Ascending (insertMember name value members) := by
  induction members with
  | nil => exact List.pairwise_singleton _ _
  | cons n rest ih =>
    obtain ⟨hfirst, hrest⟩ := List.pairwise_cons.1 h
    unfold insertMember
    split
    · next hbefore =>
      refine List.pairwise_cons.2 ⟨fun m hm => ?_, h⟩
      rcases List.mem_cons.1 hm with rfl | hm
      · exact hbefore
      · exact String.lt_trans hbefore (hfirst m hm)
    split
    · next hafter =>
      refine List.pairwise_cons.2 ⟨fun m hm => ?_, ih hrest⟩
      rcases mem_insertMember hm with rfl | hm
      · exact hafter
      · exact hfirst m hm
    · next hbefore hafter =>
      have hname : n.1 = name :=
        String.le_antisymm (String.not_lt.1 hbefore) (String.not_lt.1 hafter)
      exact List.pairwise_cons.2 ⟨fun m hm => hname ▸ hfirst m hm, hrest⟩

theorem ascending_sortMembers (members : List (String × Json)) :
    Ascending (sortMembers members) :=
  List.foldlRecOn members _ List.Pairwise.nil fun _ h _ _ => ascending_insertMember h

theorem mem_sortMembers (h : m ∈ sortMembers members) : m ∈ members := by
  refine List.foldlRecOn (motive := fun sorted => ∀ n ∈ sorted, n ∈ members) members _ ?_ ?_ m h
  · intro n hn
    cases hn
  · intro sorted hsorted n hn n' hn'
    rcases mem_insertMember hn' with rfl | hn'
    · exact hn
    · exact hsorted n' hn'

theorem insertMember_last (h : ∀ m ∈ sorted, m.1 < name) :
    insertMember name value sorted = sorted ++ [(name, value)] := by
  induction sorted with
  | nil => rfl
  | cons n rest ih =>
    have hn : n.1 < name := h n List.mem_cons_self
    rw [insertMember, if_neg (String.lt_asymm hn), if_pos hn,
      ih fun m hm => h m (List.mem_cons_of_mem n hm), List.cons_append]

theorem sortMembers_of_ascending (h : Ascending members) : sortMembers members = members := by
  -- What is sorted already stands before what is still to come, so each member goes to the end.
  have hfold : ∀ (rest sorted : List (String × Json)), Ascending (sorted ++ rest) →
      rest.foldl (fun sorted m => insertMember m.1 m.2 sorted) sorted = sorted ++ rest := by
    intro rest
    induction rest with
    | nil => simp
    | cons m rest ih =>
      intro sorted hsorted
      have hlast : ∀ n ∈ sorted, n.1 < m.1 := fun n hn =>
        (List.pairwise_append.1 hsorted).2.2 n hn m List.mem_cons_self
      rw [List.foldl_cons, insertMember_last hlast, ih, List.append_assoc, List.singleton_append]
      rwa [List.append_assoc, List.singleton_append]
  exact hfold members [] h

/-! ### Canonical values -/

theorem canonicalItems_eq_map (items : List Json) : canonicalItems items = items.map canonical := by
  induction items with
  | nil => rfl
  | cons v items ih => rw [canonicalItems, ih, List.map_cons]

theorem canonicalMembers_eq_map (members : List (String × Json)) :
    canonicalMembers members = members.map fun m => (m.1, m.2.canonical) := by
  induction members with
  | nil => rfl
  | cons m members ih => rw [canonicalMembers, ih, List.map_cons]

/-- The members of each object ascend. -/
inductive IsCanonical : Json → Prop
  | null : IsCanonical .null
  | bool {b : Bool} : IsCanonical (.bool b)
  | number {n : Number} : IsCanonical (.number n)
  | string {s : String} : IsCanonical (.string s)
  | array {items : List Json} (h : ∀ v ∈ items, IsCanonical v) : IsCanonical (.array items)
  | object {members : List (String × Json)} (hmembers : Ascending members)
      (h : ∀ m ∈ members, IsCanonical m.2) : IsCanonical (.object members)

mutual

theorem isCanonical_canonical : (v : Json) → IsCanonical v.canonical
  | .null => .null
  | .bool _ => .bool
  | .number _ => .number
  | .string _ => .string
  | .array items => .array (isCanonical_items items)
  | .object members =>
    .object (ascending_sortMembers _) fun m hm => isCanonical_members members m (mem_sortMembers hm)

theorem isCanonical_items : (items : List Json) → ∀ v ∈ canonicalItems items, IsCanonical v
  | [] => nofun
  | v :: items => List.forall_mem_cons.2 ⟨isCanonical_canonical v, isCanonical_items items⟩

theorem isCanonical_members :
    (members : List (String × Json)) → ∀ m ∈ canonicalMembers members, IsCanonical m.2
  | [] => nofun
  | (_, v) :: members =>
    List.forall_mem_cons.2 ⟨isCanonical_canonical v, isCanonical_members members⟩

end

theorem canonical_of_isCanonical (h : IsCanonical v) : v.canonical = v := by
  induction h with
  | null | bool | number | string => rfl
  | array _ ih =>
    rw [canonical, canonicalItems_eq_map, List.map_congr_left ih, List.map_id']
  | object hmembers _ ih =>
    rw [canonical, canonicalMembers_eq_map, List.map_congr_left, List.map_id,
      sortMembers_of_ascending hmembers]
    intro m hm
    rw [ih m hm]
    rfl

/-- What is canonical already is not changed again. -/
theorem canonical_canonical (v : Json) : v.canonical.canonical = v.canonical :=
  canonical_of_isCanonical (isCanonical_canonical v)

end ClusterConsole.Json
