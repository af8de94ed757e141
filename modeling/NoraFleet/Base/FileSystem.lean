import Mathlib

/-!
# Files and their names

A name in a directory is linked to an inode, and an open file has the inode, whatever becomes of the
name. Here a file that is created is a new one, its bytes are appended, and a name can be moved onto
another one in one step, or unlinked.

* `FileSystem.Sound.replace` — no inode has two names, after a move as before;
* `FileSystem.view_append` — bytes that are appended show under one name only;
* `FileSystem.view_replace` — a move shows a whole file under its new name.
-/

namespace Base

/-- The names of files, and what their inodes have in them. The inodes from `fresh` on are new. -/
structure FileSystem (Name Byte : Type*) where
  names : Name → Option Nat
  data : Nat → List Byte
  fresh : Nat

namespace FileSystem

variable {Name Byte : Type*} [DecidableEq Name]

/-- A file that has no name yet gets one, and is empty. -/
def create (fs : FileSystem Name Byte) (name : Name) : FileSystem Name Byte where
  names := Function.update fs.names name (some fs.fresh)
  data := Function.update fs.data fs.fresh []
  fresh := fs.fresh + 1

omit [DecidableEq Name] in
/-- Bytes at the end of an open file. -/
def append (fs : FileSystem Name Byte) (inode : Nat) (bytes : List Byte) : FileSystem Name Byte :=
  { fs with data := Function.update fs.data inode (fs.data inode ++ bytes) }

/-- `os.replace(source, target)` of a file that is there. -/
def replace (fs : FileSystem Name Byte) (source target : Name) : FileSystem Name Byte :=
  { fs with
    names := Function.update (Function.update fs.names target (fs.names source)) source none }

/-- `os.remove(name)` of a file that is there. -/
def unlink (fs : FileSystem Name Byte) (name : Name) : FileSystem Name Byte :=
  { fs with names := Function.update fs.names name none }

/-- What is under a name. -/
def view (fs : FileSystem Name Byte) (name : Name) : Option (List Byte) :=
  (fs.names name).map fs.data

/-- Every inode that has a name is not a new one, and has one name only. -/
structure Sound (fs : FileSystem Name Byte) : Prop where
  linked : ∀ name inode, fs.names name = some inode → inode < fs.fresh
  single : ∀ name other inode, fs.names name = some inode → fs.names other = some inode →
    name = other

variable {fs : FileSystem Name Byte} {name other : Name} {inode : Nat}

/-! ## Soundness -/

theorem Sound.create (h : fs.Sound) (name : Name) : (fs.create name).Sound where
  linked := by
    intro other inode hother
    unfold FileSystem.create at hother ⊢
    dsimp only at hother ⊢
    by_cases heq : other = name
    · rw [heq, Function.update_self] at hother
      have hfresh := Option.some.inj hother
      omega
    · rw [Function.update_of_ne heq] at hother
      have hold := h.linked other inode hother
      omega
  single := by
    have hfresh : ∀ other, fs.names other ≠ some fs.fresh := fun other hother =>
      absurd (h.linked other _ hother) (Nat.lt_irrefl _)
    intro first second inode hfirst hsecond
    unfold FileSystem.create at hfirst hsecond
    dsimp only at hfirst hsecond
    by_cases heq : first = name
    · by_cases heq' : second = name
      · rw [heq, heq']
      · rw [heq, Function.update_self] at hfirst
        rw [Function.update_of_ne heq', ← hfirst] at hsecond
        exact absurd hsecond (hfresh second)
    · rw [Function.update_of_ne heq] at hfirst
      by_cases heq' : second = name
      · rw [heq', Function.update_self] at hsecond
        rw [← hsecond] at hfirst
        exact absurd hfirst (hfresh first)
      · rw [Function.update_of_ne heq'] at hsecond
        exact h.single first second inode hfirst hsecond

omit [DecidableEq Name] in
theorem Sound.append (h : fs.Sound) (inode : Nat) (bytes : List Byte) :
    (fs.append inode bytes).Sound := ⟨h.linked, h.single⟩

theorem Sound.unlink (h : fs.Sound) (name : Name) : (fs.unlink name).Sound := by
  have hold : ∀ other inode, (fs.unlink name).names other = some inode →
      fs.names other = some inode := by
    intro other inode hother
    unfold FileSystem.unlink at hother
    dsimp only at hother
    by_cases heq : other = name
    · rw [heq, Function.update_self] at hother
      cases hother
    · rwa [Function.update_of_ne heq] at hother
  exact ⟨fun other inode hother => h.linked other inode (hold other inode hother),
    fun first second inode hfirst hsecond =>
      h.single first second inode (hold first inode hfirst) (hold second inode hsecond)⟩

theorem Sound.replace (h : fs.Sound) (source target : Name) : (fs.replace source target).Sound := by
  -- every name has the inode of a name before
  let from' : Name → Name := fun other => if other = target then source else other
  have hold : ∀ other inode, (fs.replace source target).names other = some inode →
      other ≠ source ∧ fs.names (from' other) = some inode := by
    intro other inode hother
    unfold FileSystem.replace at hother
    dsimp only at hother
    by_cases heq : other = source
    · rw [heq, Function.update_self] at hother
      cases hother
    · rw [Function.update_of_ne heq] at hother
      refine ⟨heq, ?_⟩
      by_cases htarget : other = target
      · rw [htarget, Function.update_self] at hother
        show fs.names (if other = target then source else other) = _
        rwa [if_pos htarget]
      · rw [Function.update_of_ne htarget] at hother
        show fs.names (if other = target then source else other) = _
        rwa [if_neg htarget]
  refine ⟨fun other inode hother => h.linked _ inode (hold other inode hother).2,
    fun first second inode hfirst hsecond => ?_⟩
  obtain ⟨hne, hfirst⟩ := hold first inode hfirst
  obtain ⟨hne', hsecond⟩ := hold second inode hsecond
  have hsame : from' first = from' second := h.single _ _ inode hfirst hsecond
  by_cases htarget : first = target
  · by_cases htarget' : second = target
    · rw [htarget, htarget']
    · have heq : source = second := by
        simpa [from', htarget, htarget'] using hsame
      exact absurd heq.symm hne'
  · by_cases htarget' : second = target
    · have heq : first = source := by
        simpa [from', htarget, htarget'] using hsame
      exact absurd heq hne
    · simpa [from', htarget, htarget'] using hsame

/-! ## What shows -/

theorem view_create (h : fs.Sound) (hne : other ≠ name) :
    (fs.create name).view other = fs.view other := by
  unfold FileSystem.create view
  dsimp only
  rw [Function.update_of_ne hne]
  cases hother : fs.names other with
  | none => rfl
  | some inode =>
      have hlt := h.linked other inode hother
      exact congrArg some (Function.update_of_ne (by omega) _ _)

omit [DecidableEq Name] in
/-- What is appended to an open file shows under its own name only. -/
theorem view_append (h : fs.Sound) (hname : fs.names name = some inode) (bytes : List Byte)
    (hne : other ≠ name) : (fs.append inode bytes).view other = fs.view other := by
  unfold append view
  dsimp only
  cases hother : fs.names other with
  | none => rfl
  | some found =>
      refine congrArg some (Function.update_of_ne ?_ _ _)
      rintro rfl
      exact hne (h.single other name found hother hname)

/-- The file that was under the old name is under the new one, all of it. -/
theorem view_replace {source target : Name} (hne : source ≠ target) :
    (fs.replace source target).view target = fs.view source := by
  unfold replace view
  dsimp only
  rw [Function.update_of_ne hne.symm, Function.update_self]

theorem view_replace_of_ne {source target : Name} (hsource : other ≠ source)
    (htarget : other ≠ target) : (fs.replace source target).view other = fs.view other := by
  unfold replace view
  dsimp only
  rw [Function.update_of_ne hsource, Function.update_of_ne htarget]

theorem view_unlink (fs : FileSystem Name Byte) (name : Name) :
    (fs.unlink name).view name = none := by
  unfold unlink view
  dsimp only
  rw [Function.update_self]
  rfl

theorem view_unlink_of_ne (hne : other ≠ name) : (fs.unlink name).view other = fs.view other := by
  unfold unlink view
  dsimp only
  rw [Function.update_of_ne hne]

end FileSystem

end Base
