/-!
# Letter case

Names of datasets and tables are compared without regard to the case of ASCII letters. Other letters
have no case here.
-/

namespace CardArchive.Text

/-- The text with every ASCII capital made small. -/
def foldCase (s : String) : String := String.ofList (s.toList.map Char.toLower)

/-- Whether two texts differ at most in the case of ASCII letters. -/
def sameName (a b : String) : Bool := foldCase a = foldCase b

theorem sameName_refl (a : String) : sameName a a = true := by simp [sameName]

theorem sameName_comm (a b : String) : sameName a b = sameName b a := by
  simp [sameName, eq_comm]

theorem sameName_trans {a b c : String} (hab : sameName a b = true) (hbc : sameName b c = true) :
    sameName a c = true := by
  simp only [sameName, decide_eq_true_eq] at *
  exact hab.trans hbc

end CardArchive.Text
