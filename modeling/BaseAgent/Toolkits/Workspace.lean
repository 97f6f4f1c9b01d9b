import BaseAgent.Models.Unicode
import Mathlib.Data.Char
import Mathlib.Data.List.Infix
import Mathlib.Data.List.Lex
import Mathlib.Data.List.Sort

/-!
# The text search of the workspace toolkit

`workspace_search_text` lists the candidates below a directory, keeps the first ones, sorts them and
collects the lines that contain the query.  One flag, `truncated`, says that a limit has been hit.
It ends the loop over the files as well, and it is set before that loop when there are more
candidates than may be searched.

The file system is a snapshot: what a path is listed as, what it resolves to, and what reading it
gives.  A file that cannot be read raises, unless it is not UTF-8.
-/

namespace BaseAgent
namespace Toolkits

inductive ToolError where
  | value (message : String)
  /-- An `OSError`. -/
  | os (message : String)
  deriving DecidableEq, Repr

structure WorkspaceLimits where
  maxReadBytes : Nat := 1000000
  maxMatches : Nat := 200
  maxSearchFiles : Nat := 1000
  maxMatchCharacters : Nat := 2000
  maxReadBytes_pos : 1 ≤ maxReadBytes := by decide
  maxMatches_pos : 1 ≤ maxMatches := by decide
  maxSearchFiles_pos : 1 ≤ maxSearchFiles := by decide
  maxMatchCharacters_pos : 1 ≤ maxMatchCharacters := by decide

structure Target where
  /-- The parts of the path below the root. -/
  relative : List String
  isFile : Bool := true
  size : Nat
  /-- The text of the file, or nothing when it is not UTF-8. -/
  text : Except ToolError (Option String)

/-- A path that is listed, and what it resolves to inside the workspace. -/
structure Candidate where
  parts : List String
  target : Except ToolError Target

structure Workspace where
  /-- The directory a path names, or what checking the path raises.  A directory lists the
  candidates of a pattern. -/
  directory : String → Except ToolError (String → Except ToolError (List Candidate))

structure Match where
  path : String
  line : Nat
  text : String
  textTruncated : Bool
  deriving DecidableEq, Repr

structure SearchResult where
  found : List Match
  truncated : Bool
  deriving DecidableEq, Repr

section Search

variable (tables : Unicode) (limits : WorkspaceLimits) (caseSensitive : Bool) (query : String)

def comparable (text : String) : List Char :=
  if caseSensitive then text.toList else tables.fold text.toList

/-- `needle in haystack`. -/
def lineMatches (line : String) : Bool :=
  decide (comparable tables caseSensitive query <:+: comparable tables caseSensitive line)

def toMatch (path : String) (lineNumber : Nat) (line : String) : Match :=
  { path
    line := lineNumber
    text := String.ofList (line.toList.take limits.maxMatchCharacters)
    textTruncated := decide (limits.maxMatchCharacters < line.length) }

/-- The loop over the lines of a file, and whether it ends at the limit of matches. -/
def searchLines (path : String) : Nat → List String → List Match → List Match × Bool
  | _, [], found => (found, false)
  | lineNumber, line :: rest, found =>
    if lineMatches tables caseSensitive query line = false then
      searchLines path (lineNumber + 1) rest found
    else if limits.maxMatches ≤ found.length then (found, true)
    else searchLines path (lineNumber + 1) rest (found ++ [toMatch limits path lineNumber line])

/-- The path and the lines of a candidate, or nothing when it is passed over. -/
def Candidate.lines (candidate : Candidate) : Except ToolError (Option (String × List String)) := do
  let target ← candidate.target
  if target.isFile = false ∨ limits.maxReadBytes < target.size then return none
  else
    match ← target.text with
    | none => return none
    | some text => return some ("/".intercalate target.relative, splitlines text)

def searchFiles : List Candidate → List Match → Bool → Except ToolError SearchResult
  | [], found, truncated => .ok ⟨found, truncated⟩
  | candidate :: rest, found, truncated =>
    match candidate.lines limits with
    | .error e => .error e
    | .ok none => searchFiles rest found truncated
    | .ok (some (path, lines)) =>
      let (found, stopped) := searchLines tables limits caseSensitive query path 1 lines found
      if truncated || stopped then .ok ⟨found, true⟩ else searchFiles rest found truncated

def Candidate.key (candidate : Candidate) : List (List Char) := candidate.parts.map String.toList

def sortedCandidates (candidates : List Candidate) : List Candidate :=
  candidates.insertionSort fun a b => a.key ≤ b.key

theorem sortedCandidates_sorted (candidates : List Candidate) :
    (sortedCandidates candidates).Perm candidates ∧
      (sortedCandidates candidates).Pairwise fun a b => a.key ≤ b.key := by
  have htotal : Std.Total fun a b : Candidate => a.key ≤ b.key :=
    ⟨fun a b => le_total a.key b.key⟩
  have htrans : IsTrans Candidate fun a b => a.key ≤ b.key :=
    ⟨fun a b c => le_trans⟩
  exact ⟨List.perm_insertionSort _ _, List.pairwise_insertionSort _ _⟩

/-- `Path(file_pattern)` is absolute or has `..` among its parts. -/
def leavesDirectory (filePattern : String) : Bool :=
  filePattern.toList.head? == some '/' ||
    (filePattern.toList.splitOn '/').contains "..".toList

def searchText (workspace : Workspace) (path filePattern : String) : Except ToolError SearchResult := do
  raiseIf (query = "") (.value "query must not be empty")
  raiseIf (leavesDirectory filePattern = true)
    (.value "file_pattern must stay inside the search directory")
  let directory ← workspace.directory path
  let listing ← directory filePattern
  let candidates := listing.take (limits.maxSearchFiles + 1)
  searchFiles tables limits caseSensitive query
    (sortedCandidates (candidates.take limits.maxSearchFiles)) []
    (decide (limits.maxSearchFiles < candidates.length))

/-! ## The lines of a file -/

def matchesFrom (path : String) : Nat → List String → List Match
  | _, [] => []
  | lineNumber, line :: rest =>
    if lineMatches tables caseSensitive query line then
      toMatch limits path lineNumber line :: matchesFrom path (lineNumber + 1) rest
    else matchesFrom path (lineNumber + 1) rest

variable {tables limits caseSensitive query}

theorem searchLines_eq (path : String) (lines : List String) (lineNumber : Nat)
    {found : List Match} (hfound : found.length ≤ limits.maxMatches) :
    searchLines tables limits caseSensitive query path lineNumber lines found =
      ((found ++ matchesFrom tables limits caseSensitive query path lineNumber lines).take
          limits.maxMatches,
        decide (limits.maxMatches < (found ++
          matchesFrom tables limits caseSensitive query path lineNumber lines).length)) := by
  induction lines generalizing lineNumber found with
  | nil =>
    rw [searchLines, matchesFrom, List.append_nil, List.take_of_length_le hfound,
      decide_eq_false (by omega)]
  | cons line rest ih =>
    rw [searchLines, matchesFrom]
    by_cases hmatch : lineMatches tables caseSensitive query line = true
    · rw [if_neg (by simp [hmatch]), if_pos hmatch]
      by_cases hfull : limits.maxMatches ≤ found.length
      · rw [if_pos hfull, List.take_append_of_le_length hfull, List.take_of_length_le hfound,
          decide_eq_true (by rw [List.length_append, List.length_cons]; omega)]
      · rw [if_neg hfull, ih (lineNumber + 1) (by rw [List.length_append, List.length_singleton]; omega),
          List.append_assoc, List.singleton_append]
    · rw [if_pos (by simpa using hmatch), if_neg hmatch]
      exact ih (lineNumber + 1) hfound

/-! ## The files -/

section Files

variable (tables limits caseSensitive query)

def Candidate.fails (candidate : Candidate) : Bool :=
  match candidate.lines limits with
  | .error _ => true
  | .ok _ => false

def Candidate.readable (candidate : Candidate) : Bool :=
  match candidate.lines limits with
  | .ok (some _) => true
  | _ => false

def fileMatches (candidate : Candidate) : List Match :=
  match candidate.lines limits with
  | .ok (some (path, lines)) => matchesFrom tables limits caseSensitive query path 1 lines
  | _ => []

def allMatches (candidates : List Candidate) : List Match :=
  candidates.flatMap (fileMatches tables limits caseSensitive query)

/-- What the search should give: the first matches, and whether something has been left out. -/
def completeResult (listing : List Candidate) : SearchResult :=
  let found := allMatches tables limits caseSensitive query
    (sortedCandidates (listing.take limits.maxSearchFiles))
  { found := found.take limits.maxMatches
    truncated := decide (limits.maxSearchFiles < listing.length ∨ limits.maxMatches < found.length) }

/-- Every candidate that raises comes behind more matches than the limit. -/
def FailsLate (candidates : List Candidate) : Prop :=
  ∀ before candidate after, candidates = before ++ candidate :: after →
    candidate.fails limits = true →
    limits.maxMatches < (allMatches tables limits caseSensitive query before).length

/-- Every candidate that raises comes behind a readable file, and the first readable file has as
many matches as the limit unless none of the files behind it has any. -/
def FirstFileSuffices (candidates : List Candidate) : Prop :=
  (∀ before candidate after, candidates = before ++ candidate :: after →
    candidate.fails limits = true → ∃ file ∈ before, file.readable limits = true) ∧
  ∀ before candidate after, candidates = before ++ candidate :: after →
    candidate.readable limits = true → (∀ file ∈ before, file.readable limits = false) →
    limits.maxMatches ≤ (fileMatches tables limits caseSensitive query candidate).length ∨
      allMatches tables limits caseSensitive query after = []

theorem candidate_cases (candidate : Candidate) :
    (∃ e, candidate.lines limits = .error e ∧ candidate.fails limits = true ∧
        candidate.readable limits = false ∧
        fileMatches tables limits caseSensitive query candidate = []) ∨
      (candidate.lines limits = .ok none ∧ candidate.fails limits = false ∧
        candidate.readable limits = false ∧
        fileMatches tables limits caseSensitive query candidate = []) ∨
      ∃ path lines, candidate.lines limits = .ok (some (path, lines)) ∧
        candidate.fails limits = false ∧ candidate.readable limits = true ∧
        fileMatches tables limits caseSensitive query candidate =
          matchesFrom tables limits caseSensitive query path 1 lines := by
  unfold Candidate.fails Candidate.readable fileMatches
  cases candidate.lines limits with
  | error e => exact .inl ⟨e, rfl, rfl, rfl, rfl⟩
  | ok result =>
    cases result with
    | none => exact .inr (.inl ⟨rfl, rfl, rfl, rfl⟩)
    | some file => exact .inr (.inr ⟨file.1, file.2, rfl, rfl, rfl, rfl⟩)

end Files

/-- A statement about every place in a list, at its head and behind it. -/
theorem forall_places_cons {α : Type} {P : List α → α → List α → Prop} {a : α} {l : List α} :
    (∀ before b after, a :: l = before ++ b :: after → P before b after) ↔
      P [] a l ∧ ∀ before b after, l = before ++ b :: after → P (a :: before) b after := by
  constructor
  · intro h
    refine ⟨h [] a l rfl, fun before b after hl => h (a :: before) b after ?_⟩
    rw [hl]
    rfl
  · rintro ⟨hhead, hrest⟩ before b after hl
    cases before with
    | nil =>
      rw [List.nil_append, List.cons.injEq] at hl
      rw [← hl.1, ← hl.2]
      exact hhead
    | cons c before =>
      rw [List.cons_append, List.cons.injEq] at hl
      rw [← hl.1]
      exact hrest before b after hl.2

theorem searchFiles_file {candidate : Candidate} {path : String} {lines : List String}
    (hlines : candidate.lines limits = .ok (some (path, lines))) {found : List Match}
    (hfound : found.length ≤ limits.maxMatches) (truncated : Bool) (rest : List Candidate) :
    searchFiles tables limits caseSensitive query (candidate :: rest) found truncated =
      if truncated || decide (limits.maxMatches <
          (found ++ matchesFrom tables limits caseSensitive query path 1 lines).length) then
        .ok ⟨(found ++ matchesFrom tables limits caseSensitive query path 1 lines).take
          limits.maxMatches, true⟩
      else searchFiles tables limits caseSensitive query rest
        ((found ++ matchesFrom tables limits caseSensitive query path 1 lines).take
          limits.maxMatches) truncated := by
  rw [searchFiles, hlines]
  dsimp only
  rw [searchLines_eq path lines 1 hfound]

theorem searchFiles_complete (candidates : List Candidate) {found : List Match}
    (hfound : found.length ≤ limits.maxMatches) :
    searchFiles tables limits caseSensitive query candidates found false =
        .ok ⟨(found ++ allMatches tables limits caseSensitive query candidates).take
            limits.maxMatches,
          decide (limits.maxMatches <
            (found ++ allMatches tables limits caseSensitive query candidates).length)⟩ ↔
      ∀ before candidate after, candidates = before ++ candidate :: after →
        candidate.fails limits = true → limits.maxMatches <
          (found ++ allMatches tables limits caseSensitive query before).length := by
  induction candidates generalizing found with
  | nil => simp [searchFiles, allMatches, hfound]
  | cons candidate rest ih =>
    rw [forall_places_cons]
    have hall : ∀ l, allMatches tables limits caseSensitive query (candidate :: l) =
        fileMatches tables limits caseSensitive query candidate ++
          allMatches tables limits caseSensitive query l := fun l => List.flatMap_cons
    simp only [hall]
    obtain ⟨e, hlines, hfails, -, hmatches⟩ | ⟨hlines, hfails, -, hmatches⟩ |
      ⟨path, lines, hlines, hfails, -, hmatches⟩ :=
      candidate_cases tables limits caseSensitive query candidate
    · have hlate : ¬ limits.maxMatches < found.length := by omega
      simp [searchFiles, hlines, hfails, allMatches, hlate]
    · rw [searchFiles, hlines]
      simpa [hfails, hmatches] using ih hfound
    · rw [searchFiles_file hlines hfound, Bool.false_or, hmatches]
      by_cases hfull : limits.maxMatches <
          (found ++ matchesFrom tables limits caseSensitive query path 1 lines).length
      · have hlate : ∀ l, limits.maxMatches < (found ++
            (matchesFrom tables limits caseSensitive query path 1 lines ++ l)).length := by
          intro l
          rw [List.length_append] at hfull ⊢
          rw [List.length_append]
          omega
        rw [if_pos (decide_eq_true hfull), ← List.append_assoc,
          List.take_append_of_le_length (Nat.le_of_lt hfull)]
        simp only [List.append_assoc, hlate, decide_true, implies_true, hfails, Bool.false_eq_true,
          false_implies, and_self]
      · rw [if_neg (by simpa using hfull), List.take_of_length_le (by omega)]
        have hrest := ih (show (found ++ matchesFrom tables limits caseSensitive query path 1
          lines).length ≤ limits.maxMatches by omega)
        simpa only [hfails, List.append_assoc, Bool.false_eq_true, false_implies, true_and]
          using hrest

theorem take_eq_take_append {α : Type} {n : Nat} {l more : List α} :
    l.take n = (l ++ more).take n ↔ n ≤ l.length ∨ more = [] := by
  constructor
  · intro h
    by_contra hnot
    rw [not_or] at hnot
    obtain ⟨hshort, hmore⟩ := hnot
    have hpos : 0 < more.length := List.length_pos_iff.mpr hmore
    have hlength := congrArg List.length h
    rw [List.length_take, List.length_take, List.length_append] at hlength
    omega
  · intro h
    cases h with
    | inl hlong => rw [List.take_append_of_le_length hlong]
    | inr hnone => rw [hnone, List.append_nil]

/-- When there are more candidates than may be searched: the loop ends with the first file. -/
theorem searchFiles_more (candidates : List Candidate) :
    searchFiles tables limits caseSensitive query candidates [] true =
        .ok ⟨(allMatches tables limits caseSensitive query candidates).take limits.maxMatches,
          true⟩ ↔
      FirstFileSuffices tables limits caseSensitive query candidates := by
  unfold FirstFileSuffices
  induction candidates with
  | nil => simp [searchFiles, allMatches]
  | cons candidate rest ih =>
    rw [forall_places_cons, forall_places_cons]
    have hall : ∀ l, allMatches tables limits caseSensitive query (candidate :: l) =
        fileMatches tables limits caseSensitive query candidate ++
          allMatches tables limits caseSensitive query l := fun l => List.flatMap_cons
    obtain ⟨e, hlines, hfails, -, hmatches⟩ | ⟨hlines, hfails, hreadable, hmatches⟩ |
      ⟨path, lines, hlines, hfails, hreadable, hmatches⟩ :=
      candidate_cases tables limits caseSensitive query candidate
    · simp [searchFiles, hlines, hfails]
    · rw [searchFiles, hlines, hall, hmatches]
      simpa [hfails, hreadable] using ih
    · rw [searchFiles_file hlines (Nat.zero_le _), Bool.true_or, if_pos rfl, hall, ← hmatches]
      simp only [List.nil_append, Except.ok.injEq, SearchResult.mk.injEq, and_true, hfails, hreadable,
        Bool.false_eq_true, false_implies, true_and, List.not_mem_nil, implies_true,
        forall_true_left, List.mem_cons, exists_eq_or_imp, true_or, forall_eq_or_imp, false_and,
        Bool.true_eq_false]
      exact take_eq_take_append.trans (by simp)

/-- The search gives the first matches of the files that may be searched, and says when something
has been left out, as long as nothing raises on the way and the first file is enough where the loop
ends with it. -/
theorem searchText_complete_iff {workspace : Workspace} {path filePattern : String}
    {directory : String → Except ToolError (List Candidate)} {listing : List Candidate}
    (hquery : query ≠ "") (hpattern : leavesDirectory filePattern = false)
    (hdirectory : workspace.directory path = .ok directory)
    (hlisting : directory filePattern = .ok listing) :
    searchText tables limits caseSensitive query workspace path filePattern =
        .ok (completeResult tables limits caseSensitive query listing) ↔
      if limits.maxSearchFiles < listing.length then
        FirstFileSuffices tables limits caseSensitive query
          (sortedCandidates (listing.take limits.maxSearchFiles))
      else FailsLate tables limits caseSensitive query
        (sortedCandidates (listing.take limits.maxSearchFiles)) := by
  have hsearch : searchText tables limits caseSensitive query workspace path filePattern =
      searchFiles tables limits caseSensitive query
        (sortedCandidates (listing.take limits.maxSearchFiles)) []
        (decide (limits.maxSearchFiles < listing.length)) := by
    unfold searchText
    rw [raiseIf, if_neg hquery, raiseIf, if_neg (by simp [hpattern]), hdirectory]
    simp only [bind, Except.bind, hlisting, List.take_take, List.length_take]
    rw [Nat.min_eq_left (Nat.le_succ _)]
    congr 1
    apply decide_eq_decide.mpr
    omega
  rw [hsearch, completeResult]
  by_cases hmore : limits.maxSearchFiles < listing.length
  · rw [if_pos hmore, decide_eq_true hmore, ← searchFiles_more]
    simp only [hmore, true_or, decide_true]
  · rw [if_neg hmore, decide_eq_false hmore]
    have hcomplete := @searchFiles_complete tables limits caseSensitive query
      (sortedCandidates (listing.take limits.maxSearchFiles)) [] (Nat.zero_le _)
    simpa only [hmore, false_or, List.nil_append, FailsLate] using hcomplete

end Search

def textFile (name text : String) : Candidate where
  parts := [name]
  target := .ok { relative := [name], size := text.length, text := .ok (some text) }

def filesWorkspace (files : List Candidate) : Workspace where
  directory _ := .ok fun _ => .ok files

def threeFiles : List Candidate :=
  [textFile "a" "no match", textFile "b" "todo", textFile "c" "todo"]

-- The second file has the only match that may be found, and the loop ends with the first.
theorem second_file_not_searched :
    searchText Unicode.ascii { maxSearchFiles := 2 } false "TODO" (filesWorkspace threeFiles) "."
        "*" ≠
      .ok (completeResult Unicode.ascii { maxSearchFiles := 2 } false "TODO" threeFiles) := by
  decide +kernel

theorem all_files_searched :
    searchText Unicode.ascii { maxSearchFiles := 3 } false "TODO" (filesWorkspace threeFiles) "."
        "*" =
      .ok (completeResult Unicode.ascii { maxSearchFiles := 3 } false "TODO" threeFiles) := by
  apply (searchText_complete_iff (by decide) (by decide) rfl rfl).mpr
  rw [if_neg (by decide)]
  intro before candidate after hsplit hfails
  have hmem : candidate ∈ threeFiles := by
    rw [← (sortedCandidates_sorted threeFiles).1.mem_iff]
    show candidate ∈ sortedCandidates (threeFiles.take 3)
    rw [hsplit]
    simp
  have hnone : ∀ file ∈ threeFiles, file.fails { maxSearchFiles := 3 } = false := by decide
  rw [hnone candidate hmem] at hfails
  cases hfails

end Toolkits
end BaseAgent
