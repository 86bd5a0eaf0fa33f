import BulkSync.Text.Quoted

set_option autoImplicit false

namespace BulkSync.Script

inductive Key
  | unit
  | integer (i : Int64)
  | text (s : String)
  deriving DecidableEq

namespace Key

def rank : Key → Nat
  | .unit => 0
  | .integer _ => 1
  | .text _ => 2

def number : Key → Int64
  | .integer i => i
  | _ => 0

def plain : Key → String
  | .unit => ""
  | .integer i => toString i.toInt
  | .text s => s

def describe : Key → String
  | .unit => "()"
  | .integer i => toString i.toInt
  | .text s => Text.quoted s

def words : Key → String
  | .text s => s
  | _ => ""

instance : Ord Key where
  compare := compareLex (compareOn rank) (compareLex (compareOn number) (compareOn words))

instance : Std.TransOrd Key :=
  inferInstanceAs (Std.TransCmp
    (compareLex (compareOn rank) (compareLex (compareOn number) (compareOn words))))

instance : Std.LawfulEqOrd Key where
  eq_of_compare {a b} same := by
    have parts : compare a.rank b.rank = .eq ∧ compare a.number b.number = .eq ∧
        compare a.words b.words = .eq := by
      change compareLex _ (compareLex _ _) a b = .eq at same
      simpa only [compareLex, compareOn, Ordering.then_eq_eq] using same
    obtain ⟨ranks, numbers, texts⟩ := parts
    cases a <;> cases b <;> simp_all [rank, number, words]

end Key

end BulkSync.Script
