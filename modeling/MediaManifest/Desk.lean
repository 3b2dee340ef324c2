import MediaManifest.FileTree
import MediaManifest.Log.Record

/-!
# Desks

A desk is what operations work at: the files, and the log in which they note
what they do.  A log that is kept in one of the files is written through a
handle of its own, each record behind the one before, so that an operation
which reads that file finds the notes before.  If one replaces the content of
that file, the handle stays where it was, and the next record is written there.
-/

namespace MediaManifest

open Log (Record Directive)

/-- Where log records go. -/
inductive Log.Sink where
  /-- Into the file at the names of `path`. -/
  | file (path : List String)
  | errors
  | nowhere
deriving DecidableEq

/-- The files, and the log: which records are kept, where they go, those that went to the
error output, and how many bytes were written into the file that the log is kept in. -/
structure Desk where
  files : FileTree
  directives : List Directive
  sink : Log.Sink
  shown : List Record
  logged : Nat

namespace Desk

/-- The desk with the given `files` at which nothing is logged. -/
def quiet (files : FileTree) : Desk :=
  ⟨files, [], .nowhere, [], 0⟩

/-- The desk after `r` was noted in its log, unless the directives of `d` leave `r` out. -/
def note (d : Desk) (r : Record) : Desk :=
  if r.isKept d.directives then
    match d.sink with
    | .nowhere => d
    | .errors => { d with shown := d.shown ++ [r] }
    | .file path =>
      { d with
        files := d.files.writeAt path d.logged r.line
        logged := d.logged + r.line.utf8ByteSize }
  else d

def noteAll (d : Desk) (rs : List Record) : Desk :=
  rs.foldl note d

@[simp] theorem note_quiet (files : FileTree) (r : Record) :
    (quiet files).note r = quiet files := by
  unfold note
  split <;> rfl

@[simp] theorem noteAll_quiet (files : FileTree) (rs : List Record) :
    (quiet files).noteAll rs = quiet files := by
  induction rs with
  | nil => rfl
  | cons r rs ih =>
      rw [noteAll, List.foldl_cons, note_quiet]
      exact ih

@[simp] theorem files_quiet (files : FileTree) : (quiet files).files = files := rfl

end Desk

end MediaManifest
