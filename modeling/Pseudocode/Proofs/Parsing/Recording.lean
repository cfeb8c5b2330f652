import Pseudocode.Tree.Parse

/-!
# Rules that record where they have been

The outcome of a rule says where its walk has ended, but not where it has been on the way, and a
rule that gives up an attempt goes back.  In the monad of recorded rules the rules of the grammar
also leave footprints: the place after every single action, and the ends of the program that were
met where an expression should stand.  The footprints of a rule that is called are kept however the
rule ends.  That the recorded rules do what the rules do is part of `Recorded.Keeps`.
-/

namespace Pseudocode

/-- What a walk leaves behind. -/
inductive Footprint where
  /-- The walk has stood at an index. -/
  | place (index : Int)
  /-- The end of the program was met where an expression should stand. -/
  | ending
  deriving DecidableEq, Repr

/-- Footprints that lead from one index to another: forward only from one index to the next. -/
def Footprint.Tread : Int → List Footprint → Int → Prop
  | start, [], stop => start = stop
  | start, place index :: rest, stop => index ≤ start + 1 ∧ Tread index rest stop
  | start, ending :: rest, stop => Tread start rest stop

theorem Footprint.Tread.append {start middle stop : Int} {trail trail' : List Footprint}
    (first : Tread start trail middle) (second : Tread middle trail' stop) :
    Tread start (trail ++ trail') stop := by
  induction trail generalizing start with
  | nil =>
      obtain rfl : start = middle := first
      exact second
  | cons print rest ih =>
      cases print with
      | place index => exact ⟨first.1, ih first.2⟩
      | ending => exact ih first

/-- The place where an outcome leaves the walk. -/
def Outcome.places {α : Type} : Outcome α → List Footprint
  | .ok _ after => [.place after.index]
  | .error _ after => [.place after.index]
  | .fault _ => []

/-- A rule together with the footprints that it leaves. -/
@[ext]
structure Recorded (α : Type) where
  /-- What the rule does. -/
  rule : Rule α
  /-- The footprints that it leaves from a walk on. -/
  trail : Walk → List Footprint

namespace Recorded

variable {α β : Type}

instance : Monad Recorded where
  pure x := ⟨pure x, fun _ => []⟩
  bind first next :=
    { rule := first.rule >>= fun x => (next x).rule
      trail := fun w =>
        match first.rule w with
        | .ok x after => first.trail w ++ (next x).trail after
        | .error _ _ => first.trail w
        | .fault _ => first.trail w }

/-! ## Actions -/

/-- A single action. -/
def act (action : Rule α) : Recorded α :=
  ⟨action, fun w => (action w).places⟩

/-- Call a rule with a tally of its own, and see how it ends. -/
def observe (called : Recorded α) : Recorded (Except Diagnostic α × Tally) :=
  ⟨Rule.observe called.rule, fun w => called.trail { w with tally := {} }⟩

/-- Meet the end of the program where an expression should stand. -/
def meetEnd : Recorded Unit :=
  ⟨Rule.count, fun w => .ending :: (Rule.count w).places⟩

instance : MonadWalk Recorded where
  act := act
  observe := observe
  meetEnd := meetEnd

end Recorded
end Pseudocode
