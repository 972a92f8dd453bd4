import ClusterConsole.Proofs.Json.Accepting

/-! Records by members. What an object comes to is found by taking one member of its tree after
the other, and the reader of a record follows the tree if the reader of a single member does: it
accepts only what the tree comes to, and it reads whatever the tree comes to. -/

namespace ClusterConsole.Json

variable {σ : Type} {member : String → σ → Text → Read σ} {Take : String → σ → Tree → σ → Prop}
  {fuel : Nat} {state state' : σ} {x rest : Text} {s : List Char}
  {ms : List (List Piece × Tree)}

/-- The members of an object are taken by their names, each with what was taken before it. -/
inductive TakeAll (Take : String → σ → Tree → σ → Prop) : σ → List (List Piece × Tree) → σ → Prop
  | nil {state : σ} : TakeAll Take state [] state
  | cons {state next state' : σ} {ps : List Piece} {t : Tree} {ms : List (List Piece × Tree)}
      {name : String} (hname : text? ps = some name) (h : Take name state t next)
      (hs : TakeAll Take next ms state') : TakeAll Take state ((ps, t) :: ms) state'

/-- A member is accepted only as what the tree of its value comes to. -/
def Accepts (member : String → σ → Text → Read σ) (Take : String → σ → Tree → σ → Prop) : Prop :=
  ∀ {name : String} {state state' : σ} {x rest : Text},
    member name state x = .ok (state', rest) →
      ∃ b b' t s, Blank b ∧ Blank b' ∧ Written t s ∧ Take name state t state' ∧
        x = b.map some ++ some ':' :: (b'.map some ++ (s.map some ++ rest))

/-- A member is read as what the tree of its value comes to. -/
def Reads (member : String → σ → Text → Read σ) (Take : String → σ → Tree → σ → Prop) : Prop :=
  ∀ {name : String} {state state' : σ} {b b' s : List Char} {t : Tree} {rest : Text},
    Blank b → Blank b' → Written t s → Ends rest → Take name state t state' →
      member name state (b.map some ++ some ':' :: (b'.map some ++ (s.map some ++ rest))) =
        .ok (state', rest)

/-! ### What is accepted -/

theorem Accepts.readMembersWith (haccepts : Accepts member Take)
    (h : readMembersWith member fuel state x = .ok (state', rest)) :
    ∃ ms s, MembersWritten ms s ∧ TakeAll Take state ms state' ∧
      x = s.map some ++ some '\x7d' :: rest := by
  -- One member takes one of the fuel, so the induction is on it and not on the text.
  induction fuel generalizing state x with
  | zero => cases h
  | succ fuel ih =>
    unfold Json.readMembersWith at h
    split at h
    · cases h
    · next hx =>
      obtain ⟨b, hb, rfl⟩ := exists_blank_of_eq hx
      split at h
      · cases h
      · next name _ hname =>
        obtain ⟨n, hn, rfl⟩ := spelled_of_readString hname
        have hpieces : text? (pieces name) = some name := text?_map_char name
        split at h
        · cases h
        · next hmember =>
          obtain ⟨b', b'', t, s, hb', hb'', hs, htake, rfl⟩ := haccepts hmember
          have hm : MemberWritten (pieces name, t) _ := .mk hb hn hb' hb'' hs
          split at h
          · cases h
          · next hclose =>
            obtain ⟨b₃, hb₃, rfl⟩ := exists_blank_of_eq hclose
            cases h
            refine ⟨_, _, .last hm hb₃, .cons hpieces htake .nil, ?_⟩
            simp only [List.map_append, List.map_cons, List.append_assoc, List.cons_append]
          · next hcomma =>
            obtain ⟨b₃, hb₃, rfl⟩ := exists_blank_of_eq hcomma
            obtain ⟨ms, s', hms, htakes, rfl⟩ := ih h
            refine ⟨_, _, .cons hm hb₃ hms, .cons hpieces htake htakes, ?_⟩
            simp only [List.map_append, List.map_cons, List.append_assoc, List.cons_append]
          · cases h
    · cases h

/-- Blanks before the first member are a part of it. -/
theorem readMembersWith_skipBlanks :
    readMembersWith member (fuel + 1) state (skipBlanks x) =
      readMembersWith member (fuel + 1) state x := by
  simp only [readMembersWith, skipBlanks_skipBlanks]

theorem Accepts.readRecord (haccepts : Accepts member Take)
    (h : readRecord member state x = .ok (state', rest)) :
    ∃ ms s, Written (.object ms) s ∧ TakeAll Take state ms state' ∧
      some '\x7b' :: x = s.map some ++ rest := by
  unfold Json.readRecord at h
  split at h
  · next hx =>
    obtain ⟨b, hb, rfl⟩ := exists_blank_of_eq hx
    cases h
    exact ⟨[], _, .noMembers hb, .nil, by rw [map_enclosed]⟩
  · rw [readMembersWith_skipBlanks] at h
    obtain ⟨ms, s, hms, htakes, rfl⟩ := haccepts.readMembersWith h
    exact ⟨ms, _, .object hms, htakes, by rw [map_enclosed]⟩

/-! ### What is read -/

theorem Reads.readMembersWith (hreads : Reads member Take) {ms : List (List Piece × Tree)}
    {s : List Char} : MembersWritten ms s →
    ∀ {fuel : Nat} {state : σ} {x : Text}, TakeAll Take state ms state' →
      (skipBlanks x).length ≤ fuel →
      skipBlanks x = skipBlanks (s.map some ++ some '\x7d' :: rest) →
      readMembersWith member fuel state x = .ok (state', rest)
  | .last (.mk hb hn hb' hb'' h) hb₃, fuel, state, x, htakes, hfuel, hx => by
    simp only [List.map_append, List.map_cons, List.append_assoc, List.cons_append] at hx
    rw [skipBlanks_to hb (by decide)] at hx
    rw [hx, List.length_cons] at hfuel
    obtain ⟨fuel, rfl⟩ := Nat.exists_eq_add_of_le' (Nat.le_trans (Nat.le_add_left 1 _) hfuel)
    cases htakes with
    | cons hname htake hnil =>
      cases hnil
      exact readMembersWith_last hx (readString_spelled hn hname)
        (hreads hb' hb'' h (ends_close hb₃ (by decide)) htake) (skipBlanks_to hb₃ (by decide))
  | .cons (.mk hb hn hb' hb'' h) hb₃ hs, fuel, state, x, htakes, hfuel, hx => by
    simp only [List.map_append, List.map_cons, List.append_assoc, List.cons_append] at hx
    rw [skipBlanks_to hb (by decide)] at hx
    rw [hx, List.length_cons] at hfuel
    obtain ⟨fuel, rfl⟩ := Nat.exists_eq_add_of_le' (Nat.le_trans (Nat.le_add_left 1 _) hfuel)
    cases htakes with
    | cons hname htake htakes =>
      rw [readMembersWith_cons hx (readString_spelled hn hname)
        (hreads hb' hb'' h (ends_close hb₃ (by decide)) htake) (skipBlanks_to hb₃ (by decide))]
      refine hreads.readMembersWith hs htakes (Nat.le_trans (length_skipBlanks_le _) ?_) rfl
      simp only [List.length_append, List.length_cons, List.length_map] at hfuel ⊢
      omega

theorem Reads.readRecord (hreads : Reads member Take) (h : Written (.object ms) s)
    (htakes : TakeAll Take state ms state') (hx : skipBlanks x = s.map some ++ rest) :
    ∃ y, skipBlanks x = some '\x7b' :: y ∧ readRecord member state y = .ok (state', rest) := by
  cases h with
  | noMembers hb =>
    cases htakes
    rw [map_enclosed] at hx
    exact ⟨_, hx, readRecord_noMembers (skipBlanks_to hb (by decide))⟩
  | object h =>
    rw [map_enclosed] at hx
    refine ⟨_, hx, ?_⟩
    rw [readRecord_members h.head?_skipBlanks, readMembersWith_skipBlanks]
    exact hreads.readMembersWith h htakes (Nat.le_succ _) rfl

/-! ### What every member keeps -/

section
variable {P : σ → Prop}

theorem readMembersWith_keeps
    (hmember : ∀ {name state state' x rest}, member name state x = .ok (state', rest) →
      P state → P state')
    (h : readMembersWith member fuel state x = .ok (state', rest)) (hstate : P state) :
    P state' := by
  induction fuel generalizing state x with
  | zero => cases h
  | succ fuel ih =>
    unfold readMembersWith at h
    split at h
    · cases h
    · split at h
      · cases h
      split at h
      · cases h
      · next hread =>
        have hnext := hmember hread hstate
        split at h
        · cases h
        · cases h
          exact hnext
        · exact ih h hnext
        · cases h
    · cases h

theorem readRecord_keeps
    (hmember : ∀ {name state state' x rest}, member name state x = .ok (state', rest) →
      P state → P state')
    (h : readRecord member state x = .ok (state', rest)) (hstate : P state) : P state' := by
  unfold readRecord at h
  split at h
  · cases h
    exact hstate
  · exact readMembersWith_keeps hmember h hstate

end

end ClusterConsole.Json
