import CardArchive.Storage.Path

/-!
# Datasets

A dataset is one data file and the table that it is loaded into. The dump from which the data file
is made has the same name with another extension.
-/

namespace CardArchive

/-- A data file and its table. -/
structure Dataset where
  tag : String
  /-- The data file, below the data directory. -/
  inputFile : String
  table : String
  deriving DecidableEq

namespace Dataset

/-- The dataset that is laid out as usual: everything is named for the tag. -/
def ofTag (tag : String) : Dataset where
  tag := tag
  inputFile := "cardlist_" ++ tag ++ ".jsonl"
  table := tag

/-- The dump from which the data file is made. -/
def dumpFile (d : Dataset) : String := Path.withExtension d.inputFile "xml"

/-- The tags of the datasets that there are by default. -/
def defaultTags : List String := ["S1", "S2", "S3", "S4"]

/-- The datasets that there are by default, in the order in which they are loaded. -/
def defaults : List Dataset := defaultTags.map ofTag

end Dataset

end CardArchive
