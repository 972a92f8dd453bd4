import ClusterConsole.Json.Record
import ClusterConsole.Proofs.Json.Skipping

/-! Readers of a given shape at the text of a tree: each takes the trees of its shape and
refuses the others, wherever the text goes on. -/

namespace ClusterConsole.Json

variable {α : Type} {reader : Text → Read α} {x rest : Text} {t : Tree} {s : List Char}

/-! ### Strings and values that may be absent -/

theorem readText_string {ps : List Piece} {text : String} (h : Written (.string ps) s)
    (ht : text? ps = some text) (hx : skipBlanks x = s.map some ++ rest) :
    readText x = .ok (text, rest) := by
  cases h with
  | string h =>
    rw [map_enclosed] at hx
    simp only [readText, hx, readString_spelled h ht]

theorem readText_other (h : Written t s) (ht : ∀ ps, t ≠ .string ps)
    (hx : skipBlanks x = s.map some ++ rest) : readText x = .error (mismatchAt x) := by
  obtain ⟨c, r, rfl, hc⟩ := h.begins
  rw [readText]
  split
  · next hquote =>
    rw [hx] at hquote
    cases hquote
    cases hc with
    | digit h => cases h
    | string => exact absurd rfl (ht _)
  · rfl

theorem readOptional_null (h : Written .null s) (hx : skipBlanks x = s.map some ++ rest) :
    readOptional reader x = .ok (none, rest) := by
  cases h with
  | null =>
    have hx : skipBlanks x = some 'n' :: ("ull".toList.map some ++ rest) := hx
    simp only [readOptional, hx, readWord_append]
    rfl

theorem readOptional_value (h : Written t s) (ht : t ≠ .null)
    (hx : skipBlanks x = s.map some ++ rest) :
    readOptional reader x = (reader x).map fun (a, r) => (some a, r) := by
  obtain ⟨c, r, rfl, hc⟩ := h.begins
  rw [readOptional]
  split
  · next hn =>
    rw [hx] at hn
    cases hn
    cases hc with
    | null => exact absurd rfl ht
    | digit h => cases h
  · rfl

/-! ### Members -/

theorem readMember_blank (reader : Text → Read α) {b : List Char} (hb : Blank b) :
    readMember reader (b.map some ++ some ':' :: rest) = reader rest := by
  rw [readMember, readColon_blank hb]

section
variable {σ : Type} {member : String → σ → Text → Read σ} {fuel : Nat} {state state' : σ}
  {name : String} {y r r' : Text}

theorem readMembersWith_last (hx : skipBlanks x = some '"' :: r)
    (hname : readString r = .ok (name, r')) (hm : member name state r' = .ok (state', y))
    (hy : skipBlanks y = some '\x7d' :: rest) :
    readMembersWith member (fuel + 1) state x = .ok (state', rest) := by
  simp only [readMembersWith, hx, hname, hm, hy]

theorem readMembersWith_cons (hx : skipBlanks x = some '"' :: r)
    (hname : readString r = .ok (name, r')) (hm : member name state r' = .ok (state', y))
    (hy : skipBlanks y = some ',' :: rest) :
    readMembersWith member (fuel + 1) state x = readMembersWith member fuel state' rest := by
  simp only [readMembersWith, hx, hname, hm, hy]

theorem readMembersWith_error {e : Error} (hx : skipBlanks x = some '"' :: r)
    (hname : readString r = .ok (name, r')) (hm : member name state r' = .error e) :
    readMembersWith member (fuel + 1) state x = .error e := by
  simp only [readMembersWith, hx, hname, hm]

theorem readRecord_noMembers (hx : skipBlanks x = some '\x7d' :: rest) :
    readRecord member state x = .ok (state, rest) := by
  simp only [readRecord, hx]

theorem readRecord_members (hx : (skipBlanks x).head? ≠ some (some '\x7d')) :
    readRecord member state x =
      readMembersWith member ((skipBlanks x).length + 1) state (skipBlanks x) := by
  rw [readRecord]
  split
  · next h => rw [h] at hx; exact absurd rfl hx
  · rfl

end

/-! ### Items -/

theorem nextItem?_close {first : Bool} (hx : skipBlanks x = some ']' :: rest) :
    nextItem? first x = .ok none := by
  simp only [nextItem?, hx]

theorem nextItem?_first (h : Written t s) (hx : skipBlanks x = s.map some ++ rest) :
    nextItem? true x = .ok (some (s.map some ++ rest)) := by
  obtain ⟨c, r, rfl, hc⟩ := h.begins
  have hclose : c ≠ ']' := hc.ne (by decide)
  simp only [List.map_cons, List.cons_append] at hx ⊢
  simp [nextItem?, hx, hclose]

theorem nextItem?_comma {y : Text} (hx : skipBlanks x = some ',' :: y) (h : Written t s)
    (hy : skipBlanks y = s.map some ++ rest) :
    nextItem? false x = .ok (some (s.map some ++ rest)) := by
  obtain ⟨c, r, rfl, hc⟩ := h.begins
  have hclose : c ≠ ']' := hc.ne (by decide)
  simp only [List.map_cons, List.cons_append] at hy ⊢
  simp [nextItem?, hx, hy, hclose]

theorem readItem_close {first : Bool} (hx : skipBlanks x = some ']' :: rest) :
    readItem first reader x = .ok (none, x) := by
  simp only [readItem, nextItem?_close hx]

theorem readItem_first (h : Written t s) (hx : skipBlanks x = s.map some ++ rest) :
    readItem true reader x =
      (reader (s.map some ++ rest)).map fun (a, r) => (some a, r) := by
  simp only [readItem, nextItem?_first h hx]

theorem readItem_comma {y : Text} (hx : skipBlanks x = some ',' :: y) (h : Written t s)
    (hy : skipBlanks y = s.map some ++ rest) :
    readItem false reader x =
      (reader (s.map some ++ rest)).map fun (a, r) => (some a, r) := by
  simp only [readItem, nextItem?_comma hx h hy]

theorem closeItems_close (hx : skipBlanks x = some ']' :: rest) : closeItems x = .ok rest := by
  simp only [closeItems, hx]

theorem closeItems_comma (hx : skipBlanks x = some ',' :: rest) :
    closeItems x = .error .malformed := by
  simp [closeItems, hx]

end ClusterConsole.Json
