import ClusterConsole.Proofs.Console.WayHome
import ClusterConsole.Server.Script

/-! The homecomings of a run. Each dispatch that passes its check arms one way home. It is
taken once, when the delay is over, unless another dispatch of the same dispatcher passes its
check before; nothing else is taken home, and the dispatchers do not disturb each other. -/

namespace ClusterConsole

namespace World

variable {s : Server} {w : World} {m : Move} {ms pre post : List Move} {page : Page} {i k id : Nat}

/-! ### Who armed what -/

/-- In a run the dispatcher `i` armed the way home `id`. -/
def Armed (s : Server) (w : World) (ms : List Move) (i id : Nat) : Prop :=
  ∃ pre m post, ms = pre ++ m :: post ∧ m.Passes i ∧ ((w.run s pre).move s m).Holds i id

theorem armed_iff : Armed s w ms i id ↔ redirects.Took s w ms i id :=
  exists_congr fun _ => exists_congr fun _ => exists_congr fun _ =>
    and_congr_right fun _ => and_congr_right fun _ => holds_iff

/-- What a dispatcher armed it still holds, or it is gone. -/
theorem Armed.holds (h : Armed s w ms i id) (ht : w.console.Tidy) (hl : Lawful s w ms) :
    (w.run s ms).Holds i id ∨ (w.run s ms).Gone id :=
  ((armed_iff.1 h).holds ht hl).imp_left holds_iff.2

theorem Armed.holds_of_mem (h : Armed s w ms i id) (ht : w.console.Tidy) (hl : Lawful s w ms)
    {j : Job Task} (hj : j ∈ (w.run s ms).console.agenda.jobs) (hk : j.task = .goHome)
    (hid : j.id = id) : (w.run s ms).Holds i id :=
  holds_iff.2 ((armed_iff.1 h).holds_of_mem ht hl hj hk hid)

/-- Every way home was armed by somebody. -/
theorem exists_armed (hl : Lawful s (ofPage page) ms) {j : Job Task}
    (hj : j ∈ ((ofPage page).run s ms).console.agenda.jobs) (hk : j.task = .goHome) :
    ∃ i, Armed s (ofPage page) ms i j.id :=
  (Owners.exists_took (o := redirects) hl hj hk).imp fun _ => armed_iff.2

/-! ### One redirect -/

/-- Everybody is entitled, and no submission is answered. -/
def entitling : Server where
  entitlement _ := { result := .ok .entitled }
  submission _ _ := none
  view _ _ := { result := .error "" }

end World

end ClusterConsole
