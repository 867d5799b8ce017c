import TokenGate.Gate.Reply

/-!
# Runs of a gate

* `Move`        a request, or clearing the memo;
* `Gate.move`   what a move decides, the memo after it, and what could be observed;
* `Gate.run`    moves one after the other.

Each request comes with its own reading of the clock and its own answers of the realm.
`run_append` says that later moves start from the memo that earlier ones leave.
-/

namespace TokenGate

inductive Move where
  | authenticate (header : Option String) (now : Int) (realm : Realm)
  | clear

namespace Gate

/-! ## one move -/

def clearedEvent : Event := ⟨.info, .cache, "Validation cache cleared", [], none⟩

/-- what a move decides, if anything, with the memo after it and the signals -/
def move (g : Gate) (m : Memo) : Move → Option Decision × Memo × List Signal
  | .authenticate header now realm =>
    let reply := g.authenticate realm m header now
    (some reply.decision, reply.memo, reply.signals)
  | .clear => (none, m.clear, [.logged clearedEvent])

/-! ## runs -/

/-- the moves' decisions in order, the last memo, and all signals -/
def run (g : Gate) (m : Memo) : List Move → List (Option Decision) × Memo × List Signal
  | [] => ([], m, [])
  | mv :: rest =>
    let (decision, m, signals) := g.move m mv
    let (decisions, m, later) := g.run m rest
    (decision :: decisions, m, signals ++ later)

theorem run_nil (g : Gate) (m : Memo) : g.run m [] = ([], m, []) := rfl

theorem run_cons (g : Gate) (m : Memo) (mv : Move) (rest : List Move) :
    g.run m (mv :: rest) =
      let step := g.move m mv
      let later := g.run step.2.1 rest
      (step.1 :: later.1, later.2.1, step.2.2 ++ later.2.2) := rfl

theorem run_append (g : Gate) (m : Memo) (ms later : List Move) :
    g.run m (ms ++ later) =
      let first := g.run m ms
      let second := g.run first.2.1 later
      (first.1 ++ second.1, second.2.1, first.2.2 ++ second.2.2) := by
  induction ms generalizing m with
  | nil => rfl
  | cons mv ms ih => simp [run_cons, ih, List.append_assoc]

end Gate

end TokenGate
