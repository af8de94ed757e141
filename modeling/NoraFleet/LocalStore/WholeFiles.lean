import Mathlib
import NoraFleet.Base.FileSystem
import NoraFleet.Base.Owners
import NoraFleet.LocalStore.Tolerance

/-!
# Whole files

A write puts the body of a reservation into a temp file, piece by piece, and then moves
that onto the path of the reservation in one step. Lookups and sweeps open the path and
read it piece by piece. Any number of them run at once, in any number of processes, and
each may fail at any operation or come to a stop for good.

Every attempt to write has a temp file with a name of its own. What was moved onto the
paths and what was removed is recorded beside the files, and with every read how much of
that there was when it opened its file.

* `stepFile_diskStep` — what a step does to the files;
* `files_outline` — what holds where a call stands;
* `files_whole` — the paths show whole bodies of writes, and a read gives what was there when it
  opened its file.
-/

namespace NoraFleet.LocalStore

open Base Base.Program

/-! ## The calls -/

/-- The name of a reservation's file. -/
abbrev ReservationFile := { fileName : FileName // isReservationFile fileName = true }

/-- `.tmp`. -/
def tempSuffix : FileName := [46, 116, 109, 112]

/-- The temp file of an attempt; the stamp has the process id and the time. -/
def tempName (fileName stamp : FileName) : FileName := fileName ++ 46 :: stamp ++ tempSuffix

/-- What a file is read for. -/
inductive Purpose where
  | get
  | expire (currentTime : ℚ)

/-- The files, the names of the temp files so far, and what was moved onto paths or removed. -/
structure Disk where
  fs : FileSystem FileName UInt8
  used : List FileName
  log : List (FileName × Option (List UInt8))

/-- `_write_one_reservation_sync`, its document already dumped, or one file that is read. -/
inductive FileOp where
  | write (file : ReservationFile) (body : List UInt8)
  | read (purpose : Purpose) (file : ReservationFile)

/-- Where a call stands. -/
inductive FileCall where
  | openTemp (file : ReservationFile) (body : List UInt8)
  -- so much of the body is in the temp file
  | writeTemp (file : ReservationFile) (body : List UInt8) (temp : FileName) (inode written : Nat)
  | replaceTemp (file : ReservationFile) (body : List UInt8) (temp : FileName)
  | removeTemp (file : ReservationFile) (body : List UInt8) (temp : FileName)
  | stored (file : ReservationFile) (body : List UInt8)
  | raised (file : ReservationFile) (body : List UInt8)
  | openFile (purpose : Purpose) (file : ReservationFile)
  | readFile (purpose : Purpose) (file : ReservationFile) (since inode : Nat) (got : List UInt8)
  -- a sweep has yet to look at the body
  | haveRead (purpose : Purpose) (file : ReservationFile) (since : Nat)
      (result : Option (List UInt8))
  | ended

/-- The stamp of an attempt, how much the system takes or gives at once, and whether the operation
fails with an `OSError`. -/
structure FileAnswer where
  stamp : FileName
  amount : Nat
  fails : Bool

def startFile : FileOp → FileCall
  | .write file body => .openTemp file body
  | .read purpose file => .openFile purpose file

section Calls

variable (limit : Nat)

/-- One step of a call. -/
def stepFile (answer : FileAnswer) (d : Disk) : FileCall → Option (Disk × FileCall)
  | .openTemp file body =>
      let temp := tempName file answer.stamp
      if answer.fails then some ({ d with used := temp :: d.used }, .removeTemp file body temp)
      else some ({ d with fs := d.fs.create temp, used := temp :: d.used },
        .writeTemp file body temp d.fs.fresh 0)
  | .writeTemp file body temp inode written =>
      if answer.fails then some (d, .removeTemp file body temp)
      else if written < body.length then
        let piece := (body.drop written).take (answer.amount + 1)
        some ({ d with fs := d.fs.append inode piece },
          .writeTemp file body temp inode (written + piece.length))
      else some (d, .replaceTemp file body temp)
  | .replaceTemp file body temp =>
      if answer.fails || (d.fs.names temp).isNone then some (d, .removeTemp file body temp)
      else some ({ d with
        fs := d.fs.replace temp file
        log := d.log ++ [(file.1, d.fs.view temp)] }, .stored file body)
  | .removeTemp file body temp =>
      if answer.fails || (d.fs.names temp).isNone then some (d, .raised file body)
      else some ({ d with fs := d.fs.unlink temp }, .raised file body)
  | .openFile purpose file =>
      if answer.fails then some (d, .ended)
      else
        match d.fs.names file with
        | none => some (d, .haveRead purpose file d.log.length none)
        | some inode => some (d, .readFile purpose file d.log.length inode [])
  | .readFile purpose file since inode got =>
      if answer.fails then some (d, .ended)
      else
        let piece := ((d.fs.data inode).drop got.length).take (answer.amount + 1)
        if piece.isEmpty then some (d, .haveRead purpose file since (some got))
        else some (d, .readFile purpose file since inode (got ++ piece))
  | .haveRead (.expire currentTime) file _ (some body) =>
      match expireOneFile limit currentTime body with
      | .ok true =>
          if answer.fails || (d.fs.names file).isNone then some (d, .ended)
          else some ({ d with
            fs := d.fs.unlink file
            log := d.log ++ [(file.1, none)] }, .ended)
      | _ => some (d, .ended)
  | .haveRead .. => none
  | .stored .. | .raised .. | .ended => none

/-- Writes, lookups and sweeps over one directory. -/
def fileProgram : Program Disk FileOp FileCall FileAnswer Empty where
  start := startFile
  step := stepFile limit
  env _ _ := none

end Calls

/-- Every attempt has a temp file of its own. -/
def OwnTemp (answer : FileAnswer) (d : Disk) : FileCall → Prop
  | .openTemp file _ => tempName file answer.stamp ∉ d.used
  | _ => True

instance (answer : FileAnswer) (d : Disk) : (l : FileCall) → Decidable (OwnTemp answer d l)
  | .openTemp file _ => inferInstanceAs (Decidable (tempName file answer.stamp ∉ d.used))
  | .writeTemp .. | .replaceTemp .. | .removeTemp .. | .stored .. | .raised .. | .openFile ..
  | .readFile .. | .haveRead .. | .ended => isTrue trivial

/-- A directory after what was recorded. -/
def directoryAfter (directory : Directory) (log : List (FileName × Option (List UInt8))) :
    Directory :=
  log.foldl (fun directory entry =>
    match entry.2 with
    | some body => directory.set entry.1 body
    | none => directory.pop entry.1) directory

/-- The files as they are found: those of reservations are the directory, and others may have been
left behind by attempts before. -/
structure Found (directory : Directory) (d : Disk) : Prop where
  sound : d.fs.Sound
  shows : ∀ file : ReservationFile, d.fs.view file = directory.get? file
  left : ∀ fileName, d.fs.names fileName ≠ none → isReservationFile fileName = false →
    fileName ∈ d.used
  log : d.log = []

/-! ## Names -/

theorem isReservationFile_tempName (fileName stamp : FileName) :
    isReservationFile (tempName fileName stamp) = false := by
  rw [Bool.eq_false_iff]
  intro h
  unfold isReservationFile at h
  rw [List.isSuffixOf_iff_suffix] at h
  obtain ⟨before, hbefore⟩ := h
  have hlast := congrArg List.getLast? hbefore
  unfold tempName at hlast
  rw [List.getLast?_append, List.getLast?_append] at hlast
  have hbyte : some (110 : UInt8) = some 112 := hlast
  cases hbyte

theorem file_ne_temp {temp : FileName} (hours : isReservationFile temp = false)
    (file : ReservationFile) : file.1 ≠ temp := by
  intro heq
  have hfile := file.2
  rw [heq, hours] at hfile
  cases hfile

theorem directoryAfter_concat (directory : Directory)
    (log : List (FileName × Option (List UInt8))) (entry : FileName × Option (List UInt8))
    (fileName : FileName) :
    (directoryAfter directory (log ++ [entry])).get? fileName =
      if fileName = entry.1 then entry.2 else (directoryAfter directory log).get? fileName := by
  unfold directoryAfter
  rw [List.foldl_append, List.foldl_cons, List.foldl_nil]
  rcases entry with ⟨name, _ | body⟩
  · exact Dict.get?_pop _ _ _
  · exact Dict.get?_set _ _ _ _

/-! ## What a step does to the files -/

/-- The temp file that a call has. -/
def FileCall.temp : FileCall → Option FileName
  | .writeTemp _ _ temp .. | .replaceTemp _ _ temp | .removeTemp _ _ temp => some temp
  | _ => none

/-- A step of a call with such a temp file: nothing, or one operation. -/
inductive DiskStep (own : Option FileName) (d : Disk) : Disk → Prop
  | keep : DiskStep own d d
  | use {temp : FileName} (hnew : temp ∉ d.used) :
      DiskStep own d { d with used := temp :: d.used }
  | create {temp : FileName} (hnew : temp ∉ d.used) (hours : isReservationFile temp = false) :
      DiskStep own d { d with fs := d.fs.create temp, used := temp :: d.used }
  | append {temp : FileName} {inode : Nat} (bytes : List UInt8) (hown : own = some temp)
      (hours : isReservationFile temp = false) (hname : d.fs.names temp = some inode) :
      DiskStep own d { d with fs := d.fs.append inode bytes }
  | replace {temp : FileName} (file : ReservationFile) (hown : own = some temp)
      (hours : isReservationFile temp = false) :
      DiskStep own d { d with
        fs := d.fs.replace temp file
        log := d.log ++ [(file.1, d.fs.view temp)] }
  | unlink {temp : FileName} (hown : own = some temp) (hours : isReservationFile temp = false) :
      DiskStep own d { d with fs := d.fs.unlink temp }
  | remove (file : ReservationFile) :
      DiskStep own d { d with
        fs := d.fs.unlink file
        log := d.log ++ [(file.1, none)] }

/-- The files are sound, what is not a reservation's is the temp file of an attempt, and the paths
show what was recorded. -/
structure FilesInv (directory : Directory) (d : Disk) : Prop where
  sound : d.fs.Sound
  left : ∀ fileName, d.fs.names fileName ≠ none → isReservationFile fileName = false →
    fileName ∈ d.used
  shows : ∀ file : ReservationFile, d.fs.view file = (directoryAfter directory d.log).get? file

/-- What holds where a call stands. A file that is read is not the temp file of any attempt, even
when its name has gone to another one. -/
def Stands (directory : Directory) (d : Disk) : FileCall → Prop
  | .writeTemp _ body temp inode written => temp ∈ d.used ∧ isReservationFile temp = false ∧
      d.fs.names temp = some inode ∧ d.fs.data inode = body.take written
  | .replaceTemp _ body temp => temp ∈ d.used ∧ isReservationFile temp = false ∧
      d.fs.view temp = some body
  | .removeTemp _ _ temp => temp ∈ d.used ∧ isReservationFile temp = false
  | .stored file body => (file.1, some body) ∈ d.log
  | .readFile _ file since inode got => since ≤ d.log.length ∧ inode < d.fs.fresh ∧
      (∀ name, d.fs.names name = some inode → isReservationFile name = true) ∧
      got.IsPrefix (d.fs.data inode) ∧
      (directoryAfter directory (d.log.take since)).get? file = some (d.fs.data inode)
  | .haveRead _ file since result => since ≤ d.log.length ∧
      (directoryAfter directory (d.log.take since)).get? file = result
  | .openTemp .. | .raised .. | .openFile .. | .ended => True

variable {directory : Directory} {d d' : Disk} {own : Option FileName} {limit : Nat}
  {answer : FileAnswer} {l l' : FileCall}

theorem Stands.temp_mem (h : Stands directory d l) {temp : FileName} (htemp : l.temp = some temp) :
    temp ∈ d.used ∧ isReservationFile temp = false := by
  cases l with
  | writeTemp file body name inode written =>
      obtain rfl := Option.some.inj htemp
      exact ⟨h.1, h.2.1⟩
  | replaceTemp file body name =>
      obtain rfl := Option.some.inj htemp
      exact ⟨h.1, h.2.1⟩
  | removeTemp file body name =>
      obtain rfl := Option.some.inj htemp
      exact h
  | openTemp file body => cases htemp
  | stored file body => cases htemp
  | raised file body => cases htemp
  | openFile purpose file => cases htemp
  | readFile purpose file since inode got => cases htemp
  | haveRead purpose file since result => cases htemp
  | ended => cases htemp

theorem DiskStep.filesInv (h : DiskStep own d d') (hinv : FilesInv directory d) :
    FilesInv directory d' := by
  obtain ⟨hsound, hleft, hshows⟩ := hinv
  cases h with
  | keep => exact ⟨hsound, hleft, hshows⟩
  | use hnew =>
      exact ⟨hsound, fun name hname hours => List.mem_cons_of_mem _ (hleft name hname hours),
        hshows⟩
  | @create temp hnew hours =>
      refine ⟨hsound.create temp, fun name hname hours' => ?_, fun file => ?_⟩
      · by_cases heq : name = temp
        · exact heq ▸ List.mem_cons_self
        · have hold : Function.update d.fs.names temp (some d.fs.fresh) name ≠ none := hname
          rw [Function.update_of_ne heq] at hold
          exact List.mem_cons_of_mem _ (hleft name hold hours')
      · have hne := file_ne_temp hours file
        exact (FileSystem.view_create hsound hne).trans (hshows file)
  | @append temp inode bytes hown hours hname =>
      refine ⟨hsound.append inode bytes, hleft, fun file => ?_⟩
      have hne := file_ne_temp hours file
      exact (FileSystem.view_append hsound hname bytes hne).trans (hshows file)
  | @replace temp file hown hours =>
      have hne := file_ne_temp hours
      refine ⟨hsound.replace temp file, fun name hname hours' => ?_, fun other => ?_⟩
      · have hnew : Function.update (Function.update d.fs.names file (d.fs.names temp)) temp none
            name ≠ none := hname
        -- the name of the temp file is gone, and the path is no temp name
        by_cases htemp : name = temp
        · rw [htemp, Function.update_self] at hnew
          exact absurd rfl hnew
        · rw [Function.update_of_ne htemp] at hnew
          by_cases hfile : name = file
          · rw [hfile, file.2] at hours'
            cases hours'
          · rw [Function.update_of_ne hfile] at hnew
            exact hleft name hnew hours'
      · dsimp only
        rw [directoryAfter_concat]
        dsimp only
        -- this path shows the body that was moved onto it
        by_cases hfile : other.1 = file.1
        · rw [if_pos hfile, hfile]
          exact FileSystem.view_replace (hne file).symm
        · rw [if_neg hfile]
          exact (FileSystem.view_replace_of_ne (hne other) hfile).trans (hshows other)
  | @unlink temp hown hours =>
      refine ⟨hsound.unlink temp, fun name hname hours' => ?_, fun file => ?_⟩
      · have hold : Function.update d.fs.names temp none name ≠ none := hname
        by_cases heq : name = temp
        · rw [heq, Function.update_self] at hold
          exact absurd rfl hold
        · rw [Function.update_of_ne heq] at hold
          exact hleft name hold hours'
      · have hne := file_ne_temp hours file
        exact (FileSystem.view_unlink_of_ne hne).trans (hshows file)
  | remove file =>
      refine ⟨hsound.unlink file, fun name hname hours' => ?_, fun other => ?_⟩
      · have hold : Function.update d.fs.names file none name ≠ none := hname
        by_cases heq : name = file
        · rw [heq, Function.update_self] at hold
          exact absurd rfl hold
        · rw [Function.update_of_ne heq] at hold
          exact hleft name hold hours'
      · dsimp only
        rw [directoryAfter_concat]
        dsimp only
        by_cases hfile : other.1 = file.1
        · rw [if_pos hfile, hfile]
          exact FileSystem.view_unlink _ _
        · rw [if_neg hfile]
          exact (FileSystem.view_unlink_of_ne hfile).trans (hshows other)

/-! ## Other calls -/

theorem DiskStep.grows (h : DiskStep own d d') :
    (∃ more, d'.log = d.log ++ more) ∧ d.used ⊆ d'.used := by
  cases h with
  | keep => exact ⟨⟨[], (List.append_nil _).symm⟩, List.Subset.refl _⟩
  | use hnew => exact ⟨⟨[], (List.append_nil _).symm⟩, List.subset_cons_self _ _⟩
  | create hnew hours => exact ⟨⟨[], (List.append_nil _).symm⟩, List.subset_cons_self _ _⟩
  | append bytes hown hours hname => exact ⟨⟨[], (List.append_nil _).symm⟩, List.Subset.refl _⟩
  | replace file hown hours => exact ⟨⟨_, rfl⟩, List.Subset.refl _⟩
  | unlink hown hours => exact ⟨⟨[], (List.append_nil _).symm⟩, List.Subset.refl _⟩
  | remove file => exact ⟨⟨_, rfl⟩, List.Subset.refl _⟩

theorem DiskStep.take_log (h : DiskStep own d d') {since : Nat} (hsince : since ≤ d.log.length) :
    since ≤ d'.log.length ∧ d'.log.take since = d.log.take since := by
  obtain ⟨⟨more, hmore⟩, -⟩ := h.grows
  rw [hmore]
  refine ⟨?_, List.take_append_of_le_length hsince⟩
  rw [List.length_append]
  omega

/-- The temp file of one call is left alone by the others. -/
theorem DiskStep.temp_same (h : DiskStep own d d') (hinv : FilesInv directory d) {temp : FileName}
    {inode : Nat} (hused : temp ∈ d.used) (hours : isReservationFile temp = false)
    (hown : own ≠ some temp) (hname : d.fs.names temp = some inode) :
    d'.fs.names temp = some inode ∧ d'.fs.data inode = d.fs.data inode := by
  cases h with
  | keep => exact ⟨hname, rfl⟩
  | use hnew => exact ⟨hname, rfl⟩
  | @create other hnew hours' =>
      have hne : temp ≠ other := by
        rintro rfl
        exact hnew hused
      have hlt := hinv.sound.linked temp inode hname
      exact ⟨(Function.update_of_ne hne _ _).trans hname, Function.update_of_ne (by omega) _ _⟩
  | @append other found bytes hother hours' hname' =>
      refine ⟨hname, Function.update_of_ne ?_ _ _⟩
      rintro rfl
      rw [hinv.sound.single temp other inode hname hname'] at hown
      exact hown hother
  | @replace other file hother hours' =>
      have hne : temp ≠ other := by
        rintro rfl
        exact hown hother
      refine ⟨?_, rfl⟩
      exact (Function.update_of_ne hne _ _).trans
        ((Function.update_of_ne (file_ne_temp hours file).symm _ _).trans hname)
  | @unlink other hother hours' =>
      have hne : temp ≠ other := by
        rintro rfl
        exact hown hother
      exact ⟨(Function.update_of_ne hne _ _).trans hname, rfl⟩
  | remove file =>
      exact ⟨(Function.update_of_ne (file_ne_temp hours file).symm _ _).trans hname, rfl⟩

/-- A file that is open for reading is left alone. -/
theorem DiskStep.open_same (h : DiskStep own d d') {inode : Nat} (hinode : inode < d.fs.fresh)
    (hnames : ∀ name, d.fs.names name = some inode → isReservationFile name = true) :
    inode < d'.fs.fresh ∧ d'.fs.data inode = d.fs.data inode ∧
      ∀ name, d'.fs.names name = some inode → isReservationFile name = true := by
  cases h with
  | keep => exact ⟨hinode, rfl, hnames⟩
  | use hnew => exact ⟨hinode, rfl, hnames⟩
  | @create temp hnew hours =>
      refine ⟨Nat.lt_succ_of_lt hinode, Function.update_of_ne (by omega) _ _, fun name hname => ?_⟩
      have hnew' : Function.update d.fs.names temp (some d.fs.fresh) name = some inode := hname
      by_cases heq : name = temp
      · rw [heq, Function.update_self] at hnew'
        -- the temp file is a new one
        have hfresh := Option.some.inj hnew'
        omega
      · rw [Function.update_of_ne heq] at hnew'
        exact hnames name hnew'
  | @append temp found bytes hown hours hname =>
      refine ⟨hinode, Function.update_of_ne ?_ _ _, hnames⟩
      rintro rfl
      -- what is written to is a temp file, and this is none
      rw [hnames temp hname] at hours
      cases hours
  | @replace temp file hown hours =>
      refine ⟨hinode, rfl, fun name hname => ?_⟩
      have hnew : Function.update (Function.update d.fs.names file (d.fs.names temp)) temp none
          name = some inode := hname
      by_cases htemp : name = temp
      · rw [htemp, Function.update_self] at hnew
        cases hnew
      · rw [Function.update_of_ne htemp] at hnew
        by_cases hfile : name = file
        · rw [hfile]
          exact file.2
        · rw [Function.update_of_ne hfile] at hnew
          exact hnames name hnew
  | @unlink temp hown hours =>
      refine ⟨hinode, rfl, fun name hname => ?_⟩
      have hold : Function.update d.fs.names temp none name = some inode := hname
      by_cases heq : name = temp
      · rw [heq, Function.update_self] at hold
        cases hold
      · rw [Function.update_of_ne heq] at hold
        exact hnames name hold
  | remove file =>
      refine ⟨hinode, rfl, fun name hname => ?_⟩
      have hold : Function.update d.fs.names file none name = some inode := hname
      by_cases heq : name = file
      · rw [heq]
        exact file.2
      · rw [Function.update_of_ne heq] at hold
        exact hnames name hold

/-- No call gets in the way of another one. -/
theorem DiskStep.stands (h : DiskStep own d d') (hinv : FilesInv directory d)
    (hown : ∀ temp, own = some temp → l.temp ≠ some temp) (hstands : Stands directory d l) :
    Stands directory d' l := by
  have hused := h.grows.2
  cases l with
  | writeTemp file body temp inode written =>
      obtain ⟨hmem, hours, hname, hdata⟩ := hstands
      obtain ⟨hname', hdata'⟩ :=
        h.temp_same hinv hmem hours (fun hsame => hown temp hsame rfl) hname
      exact ⟨hused hmem, hours, hname', hdata'.trans hdata⟩
  | replaceTemp file body temp =>
      obtain ⟨hmem, hours, hview⟩ := hstands
      obtain ⟨inode, hname, hdata⟩ := Option.map_eq_some_iff.mp hview
      obtain ⟨hname', hdata'⟩ :=
        h.temp_same hinv hmem hours (fun hsame => hown temp hsame rfl) hname
      refine ⟨hused hmem, hours, ?_⟩
      unfold FileSystem.view
      rw [hname', Option.map_some, hdata', hdata]
  | removeTemp file body temp => exact ⟨hused hstands.1, hstands.2⟩
  | stored file body =>
      obtain ⟨⟨more, hmore⟩, -⟩ := h.grows
      show _ ∈ d'.log
      rw [hmore]
      exact List.mem_append_left _ hstands
  | readFile purpose file since inode got =>
      obtain ⟨hsince, hinode, hnames, hgot, hwas⟩ := hstands
      obtain ⟨hsince', htake⟩ := h.take_log hsince
      obtain ⟨hinode', hdata, hnames'⟩ := h.open_same hinode hnames
      refine ⟨hsince', hinode', hnames', ?_, ?_⟩
      · rw [hdata]
        exact hgot
      · rw [htake, hdata]
        exact hwas
  | haveRead purpose file since result =>
      obtain ⟨hsince, hwas⟩ := hstands
      obtain ⟨hsince', htake⟩ := h.take_log hsince
      refine ⟨hsince', ?_⟩
      rw [htake]
      exact hwas
  | openTemp file body => trivial
  | raised file body => trivial
  | openFile purpose file => trivial
  | ended => trivial

/-! ## The steps -/

/-- What a step does: one operation on the files, at the right place of the call. -/
structure StepSpec (directory : Directory) (d d' : Disk) (l l' : FileCall) : Prop where
  files : DiskStep l.temp d d'
  stands : Stands directory d' l'
  owner : OwnerStep FileCall.temp (Stands directory) d l l'
  recorded : ∀ fileName body, (fileName, some body) ∈ d'.log → (fileName, some body) ∈ d.log ∨
    ∃ file : ReservationFile, file.1 = fileName ∧ l' = .stored file body

/-- One piece more. -/
theorem take_append_piece (body : List UInt8) (written amount : Nat) :
    body.take written ++ (body.drop written).take amount =
      body.take (written + ((body.drop written).take amount).length) := by
  rw [List.take_add, List.append_cancel_left_eq, List.take_eq_take_iff, List.length_take]
  omega

theorem stepFile_spec (hinv : FilesInv directory d) (hstands : Stands directory d l)
    (hown : OwnTemp answer d l) (h : stepFile limit answer d l = some (d', l')) :
    StepSpec directory d d' l l' := by
  cases l with
  | openTemp file body =>
      have hours := isReservationFile_tempName file answer.stamp
      have hnobody : ∀ k, Stands directory d k → k.temp ≠ some (tempName file answer.stamp) :=
        fun k hk htemp => hown (hk.temp_mem htemp).1
      unfold stepFile at h
      dsimp only at h
      split at h
      · obtain ⟨rfl, rfl⟩ := Prod.mk.inj (Option.some.inj h)
        exact ⟨.use hown, ⟨List.mem_cons_self, hours⟩, .take _ rfl rfl hnobody,
          fun _ _ h => .inl h⟩
      · obtain ⟨rfl, rfl⟩ := Prod.mk.inj (Option.some.inj h)
        exact ⟨.create hown hours, ⟨List.mem_cons_self, hours, Function.update_self _ _ _,
          Function.update_self _ _ _⟩, .take _ rfl rfl hnobody,
          fun _ _ h => .inl h⟩
  | writeTemp file body temp inode written =>
      obtain ⟨hused, hours, hname, hdata⟩ := hstands
      unfold stepFile at h
      dsimp only at h
      split at h
      · obtain ⟨rfl, rfl⟩ := Prod.mk.inj (Option.some.inj h)
        exact ⟨.keep, ⟨hused, hours⟩, .keep rfl, fun _ _ h => .inl h⟩
      · split at h
        · obtain ⟨rfl, rfl⟩ := Prod.mk.inj (Option.some.inj h)
          refine ⟨.append _ rfl hours hname, ⟨hused, hours, hname, ?_⟩, .keep rfl,
            fun _ _ h => .inl h⟩
          show Function.update d.fs.data inode _ inode = _
          rw [Function.update_self, hdata]
          exact take_append_piece _ _ _
        · -- all of the body is there
          obtain ⟨rfl, rfl⟩ := Prod.mk.inj (Option.some.inj h)
          refine ⟨.keep, ⟨hused, hours, ?_⟩, .keep rfl, fun _ _ h => .inl h⟩
          unfold FileSystem.view
          rw [hname, Option.map_some, hdata, List.take_of_length_le (by omega)]
  | replaceTemp file body temp =>
      obtain ⟨hused, hours, hview⟩ := hstands
      unfold stepFile at h
      dsimp only at h
      split at h
      · obtain ⟨rfl, rfl⟩ := Prod.mk.inj (Option.some.inj h)
        exact ⟨.keep, ⟨hused, hours⟩, .keep rfl, fun _ _ h => .inl h⟩
      · obtain ⟨rfl, rfl⟩ := Prod.mk.inj (Option.some.inj h)
        refine ⟨.replace file rfl hours, ?_, .letGo rfl, fun fileName other hentry => ?_⟩
        · show _ ∈ d.log ++ [_]
          rw [hview]
          exact List.mem_append_right _ (List.mem_singleton.mpr rfl)
        · rcases List.mem_append.mp hentry with hold | hnew
          · exact .inl hold
          · obtain ⟨hname, hbody⟩ := Prod.mk.inj (List.mem_singleton.mp hnew)
            rw [hview] at hbody
            exact .inr ⟨file, hname.symm, by rw [Option.some.inj hbody]⟩
  | removeTemp file body temp =>
      unfold stepFile at h
      dsimp only at h
      split at h
      · obtain ⟨rfl, rfl⟩ := Prod.mk.inj (Option.some.inj h)
        exact ⟨.keep, trivial, .letGo rfl, fun _ _ h => .inl h⟩
      · obtain ⟨rfl, rfl⟩ := Prod.mk.inj (Option.some.inj h)
        exact ⟨.unlink rfl hstands.2, trivial, .letGo rfl, fun _ _ h => .inl h⟩
  | openFile purpose file =>
      have hnow : (directoryAfter directory (d.log.take d.log.length)).get? file =
          d.fs.view file := by
        rw [List.take_length]
        exact (hinv.shows file).symm
      unfold stepFile at h
      dsimp only at h
      split at h
      · obtain ⟨rfl, rfl⟩ := Prod.mk.inj (Option.some.inj h)
        exact ⟨.keep, trivial, .keep rfl, fun _ _ h => .inl h⟩
      · unfold FileSystem.view at hnow
        cases hfile : d.fs.names file with
        | none =>
            rw [hfile] at h hnow
            obtain ⟨rfl, rfl⟩ := Prod.mk.inj (Option.some.inj h)
            exact ⟨.keep, ⟨Nat.le_refl _, hnow⟩, .keep rfl, fun _ _ h => .inl h⟩
        | some inode =>
            rw [hfile] at h hnow
            obtain ⟨rfl, rfl⟩ := Prod.mk.inj (Option.some.inj h)
            refine ⟨.keep, ⟨Nat.le_refl _, hinv.sound.linked _ _ hfile, fun name hname => ?_,
              List.nil_prefix, hnow⟩, .keep rfl, fun _ _ h => .inl h⟩
            rw [hinv.sound.single name file inode hname hfile]
            exact file.2
  | readFile purpose file since inode got =>
      obtain ⟨hsince, hinode, hnames, hgot, hwas⟩ := hstands
      unfold stepFile at h
      dsimp only at h
      split at h
      · obtain ⟨rfl, rfl⟩ := Prod.mk.inj (Option.some.inj h)
        exact ⟨.keep, trivial, .keep rfl, fun _ _ h => .inl h⟩
      · obtain ⟨more, hmore⟩ := hgot
        rw [← hmore, List.drop_left] at h
        split at h
        next hend =>
          -- nothing is left to read
          obtain ⟨rfl, rfl⟩ := Prod.mk.inj (Option.some.inj h)
          have hnil : more = [] := by
            cases more with
            | nil => rfl
            | cons byte rest => cases hend
          rw [hnil, List.append_nil] at hmore
          exact ⟨.keep, ⟨hsince, hwas.trans (congrArg some hmore.symm)⟩, .keep rfl,
            fun _ _ h => .inl h⟩
        next =>
          obtain ⟨rfl, rfl⟩ := Prod.mk.inj (Option.some.inj h)
          refine ⟨.keep, ⟨hsince, hinode, hnames, ?_, hwas⟩, .keep rfl, fun _ _ h => .inl h⟩
          rw [← hmore, List.prefix_append_right_inj]
          exact List.take_prefix _ _
  | haveRead purpose file since result =>
      have hended : ∀ {e : Disk}, DiskStep none d e →
          (∀ fileName body, (fileName, some body) ∈ e.log → (fileName, some body) ∈ d.log) →
          StepSpec directory d e (.haveRead purpose file since result) .ended :=
        fun hstep hlog => ⟨hstep, trivial, .keep rfl, fun _ _ h => .inl (hlog _ _ h)⟩
      cases purpose with
      | get => cases h
      | expire currentTime =>
          cases result with
          | none => cases h
          | some body =>
              unfold stepFile at h
              dsimp only at h
              split at h
              · split at h
                · obtain ⟨rfl, rfl⟩ := Prod.mk.inj (Option.some.inj h)
                  exact hended .keep fun _ _ h => h
                · obtain ⟨rfl, rfl⟩ := Prod.mk.inj (Option.some.inj h)
                  refine hended (.remove file) fun fileName other hentry => ?_
                  rcases List.mem_append.mp hentry with hold | hnew
                  · exact hold
                  · cases (Prod.mk.inj (List.mem_singleton.mp hnew)).2
              · obtain ⟨rfl, rfl⟩ := Prod.mk.inj (Option.some.inj h)
                exact hended .keep fun _ _ h => h
  | stored file body => cases h
  | raised file body => cases h
  | ended => cases h

/-- The outline of writes, lookups and sweeps. -/
theorem files_outline (hfound : Found directory d) :
    OwnerOutline (fileProgram limit) OwnTemp d FileCall.temp (FilesInv directory)
      (Stands directory) where
  init := by
    refine ⟨hfound.sound, hfound.left, fun file => ?_⟩
    rw [hfound.log]
    exact hfound.shows file
  start s op _ := by cases op <;> trivial
  startsWithout op := by cases op <;> rfl
  ownerStep hI hT hok h := (stepFile_spec hI hT hok h).owner
  step hI hT hok h :=
    ⟨(stepFile_spec hI hT hok h).files.filesInv hI, (stepFile_spec hI hT hok h).stands⟩
  interfere hI hT hk hown hok h := (stepFile_spec hI hT hok h).files.stands hI hown hk
  env _ h := by cases h
  envStable _ _ h := by cases h

/-! ## Whole files -/

/-- Every body that was moved onto a path is that of a write that has come to its end. -/
theorem stored_of_log (hfound : Found directory d) {c : Config Disk FileCall}
    (hr : Reach (fileProgram limit) OwnTemp d c) :
    ∀ fileName body, (fileName, some body) ∈ c.shared.log →
      ∃ file : ReservationFile, file.1 = fileName ∧ .stored file body ∈ c.calls := by
  induction hr with
  | init =>
      intro fileName body hentry
      rw [hfound.log] at hentry
      cases hentry
  | call op _ ih =>
      intro fileName body hentry
      obtain ⟨file, hname, hstored⟩ := ih fileName body hentry
      exact ⟨file, hname, List.mem_append_left _ hstored⟩
  | @run s ls i l answer s' l' hr hl hok hs ih =>
      intro fileName body hentry
      obtain ⟨hinv, hstands, -⟩ := (files_outline hfound).sound hr
      have hspec := stepFile_spec hinv (hstands l (List.mem_of_getElem? hl)) hok hs
      have hkept : (fileName, some body) ∈ s.log → ∃ file : ReservationFile, file.1 = fileName ∧
          .stored file body ∈ ls.set i l' := by
        intro hold
        obtain ⟨file, hname, hstored⟩ := ih fileName body hold
        rcases mem_set_of_mem l' hl hstored with heq | hmem
        · -- a write that has come to its end takes no step
          rw [← heq] at hs
          cases hs
        · exact ⟨file, hname, hmem⟩
      rcases hspec.recorded fileName body hentry with hold | ⟨file, hname, rfl⟩
      · exact hkept hold
      · exact ⟨file, hname, self_mem_set _ hl⟩
  | env _ he _ => cases he

/-- **Files are whole.** However writes, lookups and sweeps run at once, and wherever they
fail or stop: every path shows what was last moved onto it or found there; what was moved
onto it is the whole body of a write that has come to its end, and every such body was; and
what a lookup or a sweep has read is all that the path had when its file was opened. -/
theorem files_whole (hfound : Found directory d) {c : Config Disk FileCall}
    (hr : Reach (fileProgram limit) OwnTemp d c) :
    (∀ file : ReservationFile,
      c.shared.fs.view file = (directoryAfter directory c.shared.log).get? file) ∧
    (∀ fileName body, (fileName, some body) ∈ c.shared.log ↔
      ∃ file : ReservationFile, file.1 = fileName ∧ .stored file body ∈ c.calls) ∧
    ∀ purpose (file : ReservationFile) since result,
      .haveRead purpose file since result ∈ c.calls → since ≤ c.shared.log.length ∧
        (directoryAfter directory (c.shared.log.take since)).get? file = result := by
  obtain ⟨hinv, hstands, -⟩ := (files_outline hfound).sound hr
  refine ⟨hinv.shows, fun fileName body => ⟨stored_of_log hfound hr fileName body, ?_⟩,
    fun purpose file since result hread => hstands _ hread⟩
  rintro ⟨file, rfl, hstored⟩
  exact hstands _ hstored

/-! ## A lookup while a write is under way -/

/-- The file of `x`. -/
def xFile : ReservationFile := ⟨xJson, by decide⟩

/-- It has three bytes. -/
def xDisk : Disk where
  fs :=
    { names := Function.update (fun _ => none) xJson (some 0)
      data := fun _ => [1, 2, 3]
      fresh := 1 }
  used := []
  log := []

theorem xDisk_found : Found (oneFile [1, 2, 3]) xDisk where
  sound := by
    have hnames : ∀ name inode, xDisk.fs.names name = some inode → name = xJson ∧ inode = 0 := by
      intro name inode hname
      unfold xDisk at hname
      dsimp only at hname
      by_cases heq : name = xJson
      · rw [heq, Function.update_self] at hname
        exact ⟨heq, (Option.some.inj hname).symm⟩
      · rw [Function.update_of_ne heq] at hname
        cases hname
    refine ⟨fun name inode hname => ?_, fun name other inode hname hother => ?_⟩
    · rw [(hnames name inode hname).2]
      exact Nat.one_pos
    · rw [(hnames name inode hname).1, (hnames other inode hother).1]
  shows file := by
    unfold xDisk FileSystem.view
    dsimp only
    by_cases heq : file.1 = xJson
    · rw [heq, Function.update_self]
      rfl
    · rw [Function.update_of_ne heq]
      have hnone : (oneFile [1, 2, 3]).get? file = none := by
        unfold Dict.get? oneFile
        rw [List.find?_cons_of_neg]
        · rfl
        · simpa using Ne.symm heq
      rw [hnone]
      rfl
  left fileName hname hours := by
    unfold xDisk at hname
    dsimp only at hname
    by_cases heq : fileName = xJson
    · rw [heq] at hours
      exact absurd hours (by decide)
    · rw [Function.update_of_ne heq] at hname
      exact absurd rfl hname
  log := rfl

/-- A byte at a time, under the stamp 7. -/
def byteByByte : FileAnswer := ⟨[55], 0, false⟩

/-- A lookup has read one byte when a write of two bytes begins and comes to its end. Then
the lookup goes on to its end, and another write has its first byte in its temp file. -/
def lookupAndWrites : List (Action FileOp FileAnswer Empty) :=
  [.call (.read .get xFile), .call (.write xFile [4, 5]), .run 0 byteByByte, .run 0 byteByByte,
    .run 1 byteByByte, .run 1 byteByByte, .run 1 byteByByte, .run 1 byteByByte, .run 1 byteByByte,
    .run 0 byteByByte, .run 0 byteByByte, .run 0 byteByByte, .call (.write xFile [6, 7]),
    .run 2 ⟨[56], 0, false⟩, .run 2 byteByByte]

/-- What that comes to. -/
def lookupRan : Config Disk FileCall :=
  (runSchedule (fileProgram 100) OwnTemp ⟨xDisk, []⟩ lookupAndWrites).get (by decide)

theorem files_whole_lookupAndWrites :
    .haveRead .get xFile 0 (some [1, 2, 3]) ∈ lookupRan.calls ∧
      (directoryAfter (oneFile [1, 2, 3]) (lookupRan.shared.log.take 0)).get? xFile =
        some [1, 2, 3] ∧
      lookupRan.shared.fs.view xFile =
        (directoryAfter (oneFile [1, 2, 3]) [(xJson, some [4, 5])]).get? xFile := by
  have hread : .haveRead .get xFile 0 (some [1, 2, 3]) ∈ lookupRan.calls := List.mem_cons_self
  have hwhole := files_whole xDisk_found
    (reach_get (fileProgram 100) OwnTemp xDisk lookupAndWrites (by decide))
  exact ⟨hread, (hwhole.2.2 .get xFile 0 _ hread).2, hwhole.1 xFile⟩

end NoraFleet.LocalStore
