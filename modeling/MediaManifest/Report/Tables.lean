import MediaManifest.Report.Table
import MediaManifest.Merge.Report
import MediaManifest.Package.Overview

/-!
# Tables of packages

Elements and merge reports are shown in framed tables with a header, summaries
and check reports as lists of names and values.
-/

namespace MediaManifest.Report

def optionalCell (value : Option String) : String :=
  value.getD "-"

def elementTable (elements : List Element) : Table where
  header := some ["ID", "Type", "Flavor", "Tags", "Checksum", "URI"]
  rows := elements.map fun e =>
    [optionalCell e.id, e.kind.name, optionalCell (e.flavor.map Flavor.text),
      Text.join ", " e.tags.toList, optionalCell (e.checksum.map Checksum.text),
      optionalCell e.uri]

/-- What a merge report shows of an outcome: the element's identifier in the source, and
what became of it. -/
def outcomeRow : Outcome → List String
  | .added id => [id, "added"]
  | .replaced id => [id, "replaced"]
  | .skipped id => [id, "skipped"]
  | .renamed source target => [source, "renamed → " ++ target]

/-- A table with a row for each outcome of the merge that is told by `r`. -/
def mergeTable (r : MergeReport) : Table where
  header := some ["Element", "Outcome"]
  rows := r.outcomes.map outcomeRow

/-- A table of the name, the title and the counts of the summary `s`. -/
def summaryTable (s : Summary) : Table where
  header := none
  rows :=
    [["Package", s.package], ["Title", optionalCell s.title]] ++
      s.counts.map fun (kind, n) => [kind.name ++ "s", Text.decimal n]

def checkTable (r : CheckReport) : Table where
  header := none
  rows :=
    [["Package", r.package], ["Elements", Text.decimal r.elements],
      ["Publishable", if r.publishable then "✓ yes" else "⚠ no"]]

def elements (es : List Element) : String :=
  (elementTable es).render Table.bordered

def merge (r : MergeReport) : String :=
  (mergeTable r).render Table.bordered

def summary (s : Summary) : String :=
  (summaryTable s).render Table.minimal

def check (r : CheckReport) : String :=
  (checkTable r).render Table.minimal

end MediaManifest.Report
