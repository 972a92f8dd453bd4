import ClusterConsole.Entitlement.Response
import ClusterConsole.Proofs.Json.Members
import ClusterConsole.Proofs.Json.RoundTrip
import ClusterConsole.Proofs.Text.Utf8

/-! An answer that was read is written so that reading gives it back, if its flag holds no
floating-point number. The flag is canonical when it has been read, and its levels and integers
are those that a reader takes. -/

namespace ClusterConsole.EntitlementResponse

open Json (Tree Piece Written Blank Ends Held Prints TakeAll text?)

variable {x rest : Json.Text} {t : Tree} {r : EntitlementResponse} {name : String}
  {met met' : Members}

/-! ### The flag that was read -/

/-- A flag as it is read: never null, canonical, and with what fits into an answer. -/
structure Settled (v : Json) : Prop where
  notNull : v ≠ .null
  held : Held (Json.maxLevels - 1) v
  canonical : v.canonical = v

theorem canonical_ne_null {v : Json} (h : v ≠ .null) : v.canonical ≠ .null := by
  cases v with
  | null => exact absurd rfl h
  | _ => exact nofun

theorem settled_of_readFlag {v : Json} (h : readFlag x = .ok (some v, rest)) : Settled v := by
  obtain ⟨⟨flag, y⟩, hread, heq⟩ := Json.map_eq_ok.1 h
  cases flag with
  | none => cases heq
  | some w =>
    cases heq
    obtain ⟨hvalue, hstart⟩ := Json.readOptional_eq_some hread
    obtain ⟨hheld, hnull⟩ := Json.readAt_of_readValue hvalue
    -- A null that was read would have been taken as no flag at all.
    refine ⟨canonical_ne_null fun hw => ?_, hheld.canonical, Json.canonical_canonical w⟩
    obtain ⟨r, hr⟩ := hnull hw
    exact hstart r hr

theorem settled_readMember (h : readMember name met x = .ok (met', rest))
    (hmet : ∀ v, met.flag = some (some v) → Settled v) :
    ∀ v, met'.flag = some (some v) → Settled v := by
  intro v hv
  unfold readMember at h
  split at h
  · split at h
    · cases h
    · obtain ⟨⟨flag, y⟩, hread, heq⟩ := Json.map_eq_ok.1 h
      cases heq
      cases hv
      obtain ⟨b, z, -, -, hflag⟩ := Json.readMember_eq_ok hread
      exact settled_of_readFlag hflag
  split at h
  · split at h
    · cases h
    · obtain ⟨⟨error, y⟩, -, heq⟩ := Json.map_eq_ok.1 h
      cases heq
      exact hmet v hv
  · obtain ⟨y, -, heq⟩ := Json.map_eq_ok.1 h
    cases heq
    exact hmet v hv

theorem settled_readItems (h : readItems x = .ok (r, rest)) : ∀ v, r.flag = some v → Settled v := by
  intro v hv
  obtain ⟨⟨flag, y⟩, hflag, h⟩ := Json.bind_eq_ok.1 h
  cases flag with
  | none =>
    obtain ⟨z, -, h⟩ := Json.bind_eq_ok.1 h
    cases h
    cases hv
  | some flag =>
    obtain ⟨⟨error, z⟩, -, h⟩ := Json.bind_eq_ok.1 h
    obtain ⟨z', -, h⟩ := Json.bind_eq_ok.1 h
    cases h
    cases hv
    obtain ⟨x', -, hread⟩ := Json.readItem_eq_some hflag
    exact settled_of_readFlag hread

theorem settled_of_read (h : read x = .ok r) : ∀ v, r.flag = some v → Settled v := by
  obtain ⟨b, -, hread⟩ := Json.finish_eq_ok.1 h
  unfold readResponse at hread
  split at hread
  · obtain ⟨⟨met, y⟩, hrecord, heq⟩ := Json.map_eq_ok.1 hread
    cases heq
    intro v hv
    have hkeeps := Json.readRecord_keeps
      (P := fun met => ∀ v, met.flag = some (some v) → Settled v) settled_readMember hrecord nofun
    exact hkeeps v (Option.join_eq_some_iff.1 hv)
  · exact settled_readItems hread
  · cases hread

/-! ### The members of a written answer -/

/-- What a flag or an error that is not null comes to, where none was met before. -/
inductive Taken : String → Members → Tree → Members → Prop
  | flag {met : Members} {t : Tree} {v : Json} (hmet : met.flag = none) (hnull : v ≠ .null)
      (hv : t.value? = some v) (hlevels : t.levels ≤ Json.maxLevels - 1) :
      Taken flagName met t { met with flag := some (some v.canonical) }
  | error {met : Members} {t : Tree} {text : String} (hmet : met.error = none)
      (ht : t.value? = some (.string text)) :
      Taken errorName met t { met with error := some (some text) }

theorem reads_readMember : Json.Reads readMember Taken := by
  intro name met met' b b' s t rest hb hb' hs hends h
  have hx : Json.skipBlanks (b'.map some ++ (s.map some ++ rest)) = s.map some ++ rest :=
    hs.skipBlanks_blank hb'
  cases h with
  | flag hmet hnull hv hlevels =>
    have ht : t ≠ .null := by
      rintro rfl
      exact hnull (Option.some.inj hv).symm
    rw [readMember, if_pos rfl, if_neg (by simp [hmet]), Json.readMember_blank readFlag hb,
      readFlag, Json.readOptional_value hs ht hx, Json.read_written hs hv hlevels hends hx]
    rfl
  | @error _ _ text hmet ht =>
    obtain ⟨ps, rfl, hps⟩ := Json.eq_string_of_value? ht
    rw [readMember, if_neg (by decide), if_pos rfl, if_neg (by simp [hmet]),
      Json.readMember_blank readError hb, readError, Json.readOptional_value hs nofun hx,
      Json.readText_string hs hps hx]
    rfl

section
variable {flag : Option Json} {error : Option String} {ts : List (List Piece × Tree)}

theorem eq_nil_of_membersValue? (h : Json.membersValue? ts = some []) : ts = [] := by
  cases ts with
  | nil => rfl
  | cons m ts =>
    obtain ⟨_, _, _, -, -, -, heq⟩ := Json.membersValue?_cons h
    cases heq

theorem takeAll_error {flag : Option (Option Json)} (h : Json.membersValue? ts =
      some (error.map fun text => (errorName, Json.string text)).toList) :
    TakeAll Taken ⟨flag, none⟩ ts ⟨flag, error.map some⟩ := by
  cases error with
  | none =>
    obtain rfl := eq_nil_of_membersValue? h
    exact .nil
  | some text =>
    match ts with
    | [] => cases h
    | (ps, t) :: ts =>
      obtain ⟨name, v, vs, hname, hv, hvs, heq⟩ := Json.membersValue?_cons h
      cases heq
      obtain rfl := eq_nil_of_membersValue? hvs
      exact .cons hname (.error rfl hv) .nil

theorem takeAll_written (h : Json.membersValue? ts = some ((flag.map (flagName, ·)).toList ++
      (error.map fun text => (errorName, Json.string text)).toList))
    (hlevels : Json.membersLevels ts ≤ Json.maxLevels - 1)
    (hsettled : ∀ v, flag = some v → Settled v) :
    TakeAll Taken {} ts ⟨flag.map some, error.map some⟩ := by
  cases flag with
  | none => exact takeAll_error h
  | some v =>
    match ts with
    | [] => cases h
    | (ps, t) :: ts =>
      obtain ⟨name, w, vs, hname, hv, hvs, heq⟩ := Json.membersValue?_cons h
      cases heq
      rw [Json.membersLevels, Nat.max_le] at hlevels
      obtain ⟨hnull, -, hcanonical⟩ := hsettled v rfl
      have htaken : Taken flagName {} t { flag := some (some v.canonical) } :=
        .flag rfl hnull hv hlevels.1
      rw [hcanonical] at htaken
      exact .cons hname htaken (takeAll_error hvs)

end

/-! ### Reading again -/

/-- A floating-point number is a part of the flag. -/
def hasFloat (r : EntitlementResponse) : Bool := r.flag.any Json.hasFloat

theorem held_toJson (h : ∀ v, r.flag = some v → Settled v) : Held Json.maxLevels r.toJson := by
  refine .object fun m hm => ?_
  rcases List.mem_append.1 hm with hm | hm
  · obtain ⟨v, hv, rfl⟩ := Option.map_eq_some_iff.1 (Option.mem_toList.1 hm)
    exact (h v hv).held
  · obtain ⟨text, -, rfl⟩ := Option.map_eq_some_iff.1 (Option.mem_toList.1 hm)
    exact .string

theorem hasFloat_toJson (r : EntitlementResponse) : r.toJson.hasFloat = r.hasFloat := by
  obtain ⟨_ | v, _ | text⟩ := r <;>
    simp [toJson, hasFloat, Json.hasFloat, Json.membersHaveFloat]

theorem ofMembers_map (flag : Option Json) (error : Option String) :
    ofMembers ⟨flag.map some, error.map some⟩ = ⟨flag, error⟩ := by
  cases flag <;> cases error <;> rfl

theorem read_toJson (hsettled : ∀ v, r.flag = some v → Settled v) (hfloat : r.hasFloat = false) :
    read (r.toJson.print.map some) = .ok r := by
  obtain ⟨t, hwritten, hvalue, hlevels⟩ :=
    Json.exists_prints (held_toJson hsettled) ((hasFloat_toJson r).trans hfloat)
  obtain ⟨ts, rfl, hts⟩ := Json.eq_object_of_value? hvalue
  have htakes := takeAll_written hts (Nat.le_of_succ_le_succ hlevels) hsettled
  have hx : Json.skipBlanks (r.toJson.print.map some) = r.toJson.print.map some ++ [] := by
    conv_lhs => rw [← List.append_nil (r.toJson.print.map some)]
    exact hwritten.skipBlanks
  obtain ⟨y, hy, hrecord⟩ := reads_readMember.readRecord hwritten htakes hx
  refine Json.finish_eq_ok.2 ⟨[], Json.blank_nil, ?_⟩
  rw [readResponse, hy]
  simp only [hrecord, Except.map, ofMembers_map, List.map_nil]

/-- The text is read as this answer, so it grants the same, has the same error, and is written
the same once more. -/
structure Restores (x : Json.Text) (r : EntitlementResponse) : Prop where
  response : read x = .ok r
  entitled : (read x).map isEntitled = .ok r.isEntitled
  error : (read x).map EntitlementResponse.error = .ok r.error
  print : (read x).map print = .ok r.print

theorem restores_of_read (h : read x = .ok r) : Restores x r where
  response := h
  entitled := by rw [h]; rfl
  error := by rw [h]; rfl
  print := by rw [h]; rfl

/-- An answer that was read, whatever it was read from, is restored from what is written of it,
as a text and as its bytes. -/
theorem restores_print (h : read x = .ok r) (hfloat : r.hasFloat = false) :
    Restores (.ofString r.print) r ∧ Restores (.ofBytes (Utf8.encode r.print.toList)) r := by
  have hread : read (.ofString r.print) = .ok r := by
    rw [Json.Text.ofString, print, String.toList_ofList]
    exact read_toJson (settled_of_read h) hfloat
  refine ⟨restores_of_read hread, restores_of_read ?_⟩
  rw [Json.Text.ofBytes, Utf8.decode_encode]
  exact hread

/-- An answer with members out of order, of one name and of none that is known. -/
def oddBody : Json.Text := .ofString
  (" \x7b\"x\":0.5,\"is_entitled\":\x7b\"b\":[1,-2],\"a\":1," ++
    "\"\\u0061\":18446744073709551615\x7d,\"error\":null\x7d")

theorem restores_print_odd : ∃ r, read oddBody = .ok r ∧ r.hasFloat = false ∧
    r.print = "\x7b\"is_entitled\":\x7b\"a\":18446744073709551615,\"b\":[1,-2]\x7d\x7d" ∧
      Restores (.ofString r.print) r ∧ Restores (.ofBytes (Utf8.encode r.print.toList)) r := by
  have hbody : (read oddBody).toOption.any (fun r => !r.hasFloat && r.print ==
      "\x7b\"is_entitled\":\x7b\"a\":18446744073709551615,\"b\":[1,-2]\x7d\x7d") = true := by
    decide +kernel
  cases hread : read oddBody with
  | error e =>
    rw [hread] at hbody
    cases hbody
  | ok r =>
    rw [hread] at hbody
    simp only [Except.toOption, Option.any_some, Bool.and_eq_true, Bool.not_eq_true',
      beq_iff_eq] at hbody
    exact ⟨r, rfl, hbody.1, hbody.2, restores_print hread hbody.1⟩

end ClusterConsole.EntitlementResponse
