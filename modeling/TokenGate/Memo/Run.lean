import TokenGate.Memo

/-!
# Histories of a memo

* `Use`             one use of a memo: store an outcome, look a token up, ask whether it has an
                    entry, forget everything;
* `Use.Answer`      what a use comes to;
* `Memo.use`        the answer to a use, and the memo after it;
* `Memo.reported`   the log events of a use;
* `Memo.run`        the answers to uses one after the other, and the last memo.

Every lookup and every store comes with its own reading of the clock; the readings may go back.
`run_append` says that later uses start from the memo that earlier ones leave.
-/

namespace TokenGate

inductive Use where
  | store (token : String) (outcome : Outcome) (now validUntil : Int)
  | lookup (token : String) (now : Int)
  | contains (token : String)
  | clear

inductive Use.Answer where
  | placement (placement : Placement)
  | lookup (found : Lookup)
  | contained (present : Bool)
  | cleared
  deriving DecidableEq

namespace Memo

/-! ## one use -/

def use (m : Memo) : Use → Use.Answer × Memo
  | .store token outcome now validUntil =>
    let (placement, next) := m.store token outcome now validUntil
    (.placement placement, next)
  | .lookup token now =>
    let (found, next) := m.lookup token now
    (.lookup found, next)
  | .contains token => (.contained (m.contains token), m)
  | .clear => (.cleared, m.clear)

def reported (m : Memo) (u : Use) : List Event :=
  match u with
  | .store token outcome now validUntil =>
    (m.store token outcome now validUntil).1.events m.capacity
  | .lookup token now => (m.lookup token now).1.events now
  | .contains _ => []
  | .clear => []

/-! ## runs -/

def run (m : Memo) : List Use → List Use.Answer × Memo
  | [] => ([], m)
  | u :: rest =>
    let (answer, next) := m.use u
    let (answers, last) := next.run rest
    (answer :: answers, last)

theorem run_cons (m : Memo) (u : Use) (rest : List Use) :
    m.run (u :: rest) =
      ((m.use u).1 :: ((m.use u).2.run rest).1, ((m.use u).2.run rest).2) := rfl

theorem run_append (m : Memo) (us vs : List Use) :
    m.run (us ++ vs) =
      ((m.run us).1 ++ ((m.run us).2.run vs).1, ((m.run us).2.run vs).2) := by
  induction us generalizing m with
  | nil => rfl
  | cons u us ih => simp [run_cons, ih]

end Memo

end TokenGate
