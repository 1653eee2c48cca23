import Mathlib.Data.List.Induction
import SyntaxForest.CommandLine.Batch
import SyntaxForest.Java.Rows
import SyntaxForest.Proofs.Artifacts

/-! Sources that are drawn one after the other.  What a batch writes are artifacts, none
of which is called as a source is, and all of which stand in one directory that is there
from the start.  So when a source has its turn, it finds everything that matters to it as
if it were drawn alone, but for two cases: an artifact is one more name of its file, or
its own artifact was made before and cannot be written again. -/

namespace SyntaxForest.Batch

open Artifact (ofPath Account)
open FileStore (WrittenAt)

variable {setting : Artifact.Setting} {store : FileStore} {source : Path} {paths : List Path}

/-! ## One source more -/

theorem ofPaths_concat (setting : Artifact.Setting) (store : FileStore) (before : List Path)
    (source : Path) :
    ofPaths setting store (before ++ [source]) =
      step setting (ofPaths setting store before) source := by
  rw [ofPaths, List.foldl_append]
  rfl

/-- What is printed about a source. -/
def lines (source : Path) (account : Account) : String :=
  "Creating AST for " ++ source.title ++ "\n" ++ account.printed ++
    match account.result with
    | .ok _ => "Generated AST for " ++ source.title ++ "\n"
    | .error _ => ""

/-- What is complained about a source. -/
def complaint (source : Path) (account : Account) : String :=
  match account.result with
  | .ok _ => ""
  | .error failure =>
    "Failed to generate AST for " ++ source.title ++ ": " ++ failure.summary ++ "\n"

/-- The artifact of a source that was drawn. -/
def generated? (account : Account) : Option Path :=
  match account.result with
  | .ok (artifact, _) => some artifact
  | .error _ => none

/-- A source that failed, and why. -/
def failed? (source : Path) (account : Account) : Option (Path × Failure) :=
  match account.result with
  | .ok _ => none
  | .error failure => some (source, failure)

/-- A batch reports of one source more what is told of it. -/
theorem step_eq (batch : Batch) (source : Path) :
    step setting batch source =
      { store := (ofPath setting batch.store source).store
        output := batch.output ++ lines source (ofPath setting batch.store source).account
        errors := batch.errors ++ complaint source (ofPath setting batch.store source).account
        generated :=
          batch.generated ++ (generated? (ofPath setting batch.store source).account).toList
        failed :=
          batch.failed ++
            (failed? source (ofPath setting batch.store source).account).toList } := by
  rw [step]
  generalize ofPath setting batch.store source = outcome
  obtain ⟨after, printed, result⟩ := outcome
  cases result with
  | ok artifact =>
    dsimp only [Artifact.Outcome.account, Except.map, lines, complaint, generated?, failed?]
    rw [String.append_empty, Option.toList_some, Option.toList_none, List.append_nil]
    simp only [String.append_assoc]
  | error failure =>
    dsimp only [Artifact.Outcome.account, Except.map, lines, complaint, generated?, failed?]
    rw [String.append_empty, Option.toList_some, Option.toList_none, List.append_nil]
    simp only [String.append_assoc]

/-- A batch goes on from what was done before. -/
theorem foldl_step (batch : Batch) (paths : List Path) :
    paths.foldl (step setting) batch =
      { store := (ofPaths setting batch.store paths).store
        output := batch.output ++ (ofPaths setting batch.store paths).output
        errors := batch.errors ++ (ofPaths setting batch.store paths).errors
        generated := batch.generated ++ (ofPaths setting batch.store paths).generated
        failed := batch.failed ++ (ofPaths setting batch.store paths).failed } := by
  induction paths using List.reverseRecOn with
  | nil =>
    rw [ofPaths, List.foldl_nil, List.foldl_nil, String.append_empty, String.append_empty,
      List.append_nil, List.append_nil]
  | append_singleton before source ih =>
    rw [ofPaths_concat, List.foldl_append, ih]
    simp only [List.foldl_cons, List.foldl_nil, step_eq, String.append_assoc, List.append_assoc]

/-- A batch is its first source and then the batch of the others. -/
theorem ofPaths_cons (setting : Artifact.Setting) (store : FileStore) (source : Path)
    (rest : List Path) :
    let account := (ofPath setting store source).account
    let later := ofPaths setting (ofPath setting store source).store rest
    ofPaths setting store (source :: rest) =
      { store := later.store
        output := lines source account ++ later.output
        errors := complaint source account ++ later.errors
        generated := (generated? account).toList ++ later.generated
        failed := (failed? source account).toList ++ later.failed } := by
  intro account later
  rw [ofPaths, List.foldl_cons, foldl_step, step_eq]
  simp only [String.empty_append, List.nil_append]
  rfl

theorem store_ofPaths_cons (source : Path) (rest : List Path) :
    (ofPaths setting store (source :: rest)).store =
      (ofPaths setting (ofPath setting store source).store rest).store := by
  rw [ofPaths_cons]

theorem store_ofPaths_concat (before : List Path) (source : Path) :
    (ofPaths setting store (before ++ [source])).store =
      (ofPath setting (ofPaths setting store before).store source).store := by
  rw [ofPaths_concat, step_eq]

/-! ## What a batch reports -/

/-- A batch writes the artifacts of its sources at most. -/
theorem writtenAt_ofPaths
    (h : setting.options.WritesText ∨ setting.program.WritesOutputOnly) (hlinks : store.NoLinks)
    (paths : List Path) :
    WrittenAt
      (fun location =>
        ∃ source ∈ paths, store.locate .create (setting.options.artifact source) = .ok location)
      store (ofPaths setting store paths).store := by
  induction paths using List.reverseRecOn with
  | nil => exact .refl _ store
  | append_singleton before source ih =>
    rw [store_ofPaths_concat]
    have hstep := Artifact.writtenAt_ofPath h (ofPaths setting store before).store source
    refine (ih.mono ?_).trans (hstep.mono ?_)
    · rintro location ⟨other, hother, hlocate⟩
      exact ⟨other, List.mem_append_left _ hother, hlocate⟩
    · intro location hlocate
      exact ⟨source, by simp, (ih.locate_eq_ok_iff hlinks).mp hlocate⟩

/-- Parses an empty text, and the text of a class with a field. -/
def smallParser : Java.Parser := fun text =>
  if text = "class A \x7b int x; \x7d" then
    .node (.ofFlags "program" 1 none 0 18 0 0)
      [.node (.ofFlags "class_declaration" 1 none 0 18 0 0)
        [.node (.ofFlags "class" 0 none 0 5 0 0) [],
         .node (.ofFlags "identifier" 1 (some "name") 6 7 0 0) [],
         .node (.ofFlags "class_body" 1 (some "body") 8 18 0 0)
          [.node (.ofFlags "\x7b" 0 none 8 9 0 0) [],
           .node (.ofFlags "field_declaration" 1 none 10 16 0 0)
            [.node (.ofFlags "integral_type" 1 (some "type") 10 13 0 0)
              [.node (.ofFlags "int" 0 none 10 13 0 0) []],
             .node (.ofFlags "variable_declarator" 1 (some "declarator") 14 15 0 0)
              [.node (.ofFlags "identifier" 1 (some "name") 14 15 0 0) []],
             .node (.ofFlags ";" 0 none 15 16 0 0) []],
           .node (.ofFlags "\x7d" 0 none 17 18 0 0) []]]]
  else .node (.ofFlags "program" 1 none 0 0 0 0) []

/-- The fields of the classes below the working directory are drawn as graphs into
another directory. -/
def graphsInto (output : String) : Artifact.Setting where
  options :=
    { input := .directory ⟨"."⟩, outputDirectory := ⟨output⟩, config := ⟨"astviz.toml"⟩
      format := .dot, dump := false, printTree := false }
  sheet := StyleSheet.plain.visiting [.fieldDeclaration]
  parser := smallParser
  program := .missing ImageProgram.standardName

/-- An artifact is one more name of the second source. -/
def sharedSource : FileStore where
  entries :=
    [(["A.java"], .file 0), (["B.java"], .file 1), (["out"], .directory true),
     (["out", "A.dot"], .file 1)]

-- Drawing the first source replaces what the second holds.
example :
    sharedSource.content? ⟨"B.java"⟩ = some .empty ∧
      (ofPaths (graphsInto "out") sharedSource [⟨"A.java"⟩]).store.content? ⟨"B.java"⟩ ≠
        some .empty := by
  decide +kernel

/-- Two sources with one artifact, where new files cannot be written again. -/
def lockedArtifacts : FileStore where
  entries :=
    [(["a"], .directory true), (["a", "X.java"], .file 0), (["b"], .directory true),
     (["b", "X.java"], .file 1), (["out"], .directory true)]
  newAccess := { isWritable := false }

-- Each source is drawn when it is alone, but not both of them.
example :
    (ofPaths (graphsInto "out") lockedArtifacts [⟨"b/X.java"⟩]).generated = [⟨"out/X.dot"⟩] ∧
      (ofPaths (graphsInto "out") lockedArtifacts [⟨"a/X.java"⟩, ⟨"b/X.java"⟩]).generated =
        [⟨"out/X.dot"⟩] := by
  decide +kernel

end SyntaxForest.Batch
