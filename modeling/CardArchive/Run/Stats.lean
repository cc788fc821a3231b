/-!
# Results of a run

What is counted for each dataset, and the sums over a run.
-/

namespace CardArchive

/-- The counts of one dataset that was loaded. -/
structure LoadStats where
  tag : String
  table : String
  read : Nat := 0
  inserted : Nat := 0
  /-- The records whose identifier was there already. -/
  skipped : Nat := 0
  deriving DecidableEq

/-- The counts in words. -/
def LoadStats.display (s : LoadStats) : String :=
  s.tag ++ " -> " ++ s.table ++ ": " ++ toString s.read ++ " read, " ++ toString s.inserted ++
    " inserted, " ++ toString s.skipped ++ " skipped"

/-- The result of loading some datasets. -/
structure RunSummary where
  /-- The counts of each dataset, in the order of loading. -/
  datasets : List LoadStats := []
  deriving DecidableEq

namespace RunSummary

/-- The rows that were added in all. -/
def inserted (s : RunSummary) : Nat := (s.datasets.map LoadStats.inserted).foldr (· + ·) 0

/-- The records that were skipped in all. -/
def skipped (s : RunSummary) : Nat := (s.datasets.map LoadStats.skipped).foldr (· + ·) 0

/-- The sums in words. -/
def display (s : RunSummary) : String :=
  "Loaded " ++ toString s.datasets.length ++ " datasets: " ++ toString s.inserted ++
    " inserted, " ++ toString s.skipped ++ " skipped"

end RunSummary

/-- The result of converting one dump. -/
structure ConvertStats where
  tag : String
  source : String
  output : String
  cards : Nat
  deriving DecidableEq

/-- The result in words. -/
def ConvertStats.display (s : ConvertStats) : String :=
  s.tag ++ ": " ++ toString s.cards ++ " cards, " ++ s.source ++ " -> " ++ s.output

end CardArchive
