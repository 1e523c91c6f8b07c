/-
# `ChatHub.Pki.Command` — the command that issues and writes

`dev_ca_main.cpp` and `writeDevCaFiles`: the command reads its options, issues
for the address, and writes the four texts into a directory, under the names
that server and client load them by.

What the file system does is a parameter, too: whether the directory is there or
can be made, and what becomes of each attempt to write a file.  A path is a text
with `/` between its parts, and different texts are different files.
-/
import ChatHub.Lib.Files
import ChatHub.Pki.Inspect

namespace ChatHub.Pki

open Contracts Attempts Files

variable {σ Key Pub Sig : Type}

/-! ## The code -/

/-- `operator/` of two paths, the second a plain name. -/
def joinPath (dir name : Bytes) : Bytes :=
  if dir = [] ∨ dir.getLast? = some (chr '/') then dir ++ name else dir ++ ascii "/" ++ name

/-- The names under which the texts are written, in order. -/
def devCaFiles (issued : IssueDevCa) (outputDir : Bytes) : List (Bytes × Bytes) := [
  (joinPath outputDir (ascii "trusted-ca.pem"), issued.caCertPem),
  (joinPath outputDir (ascii "ca-key.pem"), issued.caKeyPem),
  (joinPath outputDir (ascii "server-cert.pem"), issued.serverCertPem),
  (joinPath outputDir (ascii "server-key.pem"), issued.serverKeyPem)]

/-- What the file system does to a run. -/
structure Disk where
  /-- The directory is there, or is made. -/
  created : Bool
  fate : Nat → Fate
  files : Store Bytes

/-- `writeDevCaFiles`: did it succeed, and what is in the files. -/
def writeDevCaFiles (disk : Disk) (issued : IssueDevCa) (outputDir : Bytes) : Bool × Store Bytes :=
  if disk.created = false then (false, disk.files)
  else writeAll disk.fate disk.files (devCaFiles issued outputDir)

/-- The options of the command. -/
inductive Flag where
  | ip
  | out
  deriving DecidableEq

def Flag.text : Flag → Bytes
  | .ip => ascii "--ip"
  | .out => ascii "--out"

/-- Different names in a directory are different files. -/
theorem joinPath_injective (dir : Bytes) : Function.Injective (joinPath dir) := by
  intro name name' h
  simp only [joinPath] at h
  split at h
  · exact List.append_cancel_left h
  · exact List.append_cancel_left h

theorem devCaFiles_nodup (issued : IssueDevCa) (outputDir : Bytes) :
    ((devCaFiles issued outputDir).map Prod.fst).Nodup := by
  have hnames : [ascii "trusted-ca.pem", ascii "ca-key.pem", ascii "server-cert.pem",
      ascii "server-key.pem"].Nodup := by decide
  have hpaths := hnames.map (joinPath_injective outputDir)
  exact hpaths

theorem writeDevCaFiles_created {disk : Disk} (hcreated : disk.created = true)
    (issued : IssueDevCa) (outputDir : Bytes) :
    Leaves (devCaFiles issued outputDir) disk.files (writeDevCaFiles disk issued outputDir).1
      (writeDevCaFiles disk issued outputDir).2 := by
  rw [writeDevCaFiles, hcreated, if_neg Bool.false_ne_true.symm]
  exact writeAll_leaves _ _ (devCaFiles_nodup issued outputDir)

theorem writeDevCaFiles_not_created {disk : Disk} (hcreated : disk.created = false)
    (issued : IssueDevCa) (outputDir : Bytes) :
    writeDevCaFiles disk issued outputDir = (false, disk.files) := by
  rw [writeDevCaFiles, if_pos hcreated]

/-- **What `writeDevCaFiles` leaves on the disk**, for every directory and every
fate of the attempts: it succeeds exactly if the directory is there and all four
texts were stored; without the directory nothing is touched; otherwise the files
are those of `Leaves`. -/
theorem writeDevCaFiles_leaves (disk : Disk) (issued : IssueDevCa) (outputDir : Bytes) :
    ((writeDevCaFiles disk issued outputDir).1 = true ↔
      disk.created = true ∧ ∀ i < 4, disk.fate i = .stored) ∧
    (disk.created = false → (writeDevCaFiles disk issued outputDir).2 = disk.files) ∧
    (disk.created = true →
      Leaves (devCaFiles issued outputDir) disk.files (writeDevCaFiles disk issued outputDir).1
        (writeDevCaFiles disk issued outputDir).2) := by
  have hlength : (devCaFiles issued outputDir).length = 4 := rfl
  refine ⟨?_, fun hcreated => congrArg Prod.snd (writeDevCaFiles_not_created hcreated _ _),
    fun hcreated => writeDevCaFiles_created hcreated _ _⟩
  cases hcreated : disk.created with
  | false =>
      rw [writeDevCaFiles_not_created hcreated]
      exact iff_of_false Bool.false_ne_true fun h => Bool.false_ne_true h.1
  | true =>
      rw [writeDevCaFiles, hcreated, if_neg Bool.false_ne_true.symm, writeAll_eq_true_iff,
        hlength]
      exact (and_iff_right rfl).symm

/-- A disk on which every attempt succeeds. -/
def Sample.disk : Disk := ⟨true, fun _ => .stored, fun _ => none⟩

end ChatHub.Pki
