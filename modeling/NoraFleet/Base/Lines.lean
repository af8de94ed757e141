import Mathlib

/-!
# Streams of lines

A stream of items is cut into lines at a separator. A reader that gets the stream in
chunks keeps what follows the last separator and puts the next chunk behind it: it
finds the same lines, however the stream is divided.

* `cut_append` — a stream in two parts, cut one after the other;
* `feed_eq_cut` — the lines that are found in chunks are those of the whole stream;
* `cut_joined` — lines that were joined are found again.
-/

namespace Base

namespace Lines

variable {α : Type*} [DecidableEq α] (separator : α)

/-- The first line of a stream, and what follows its separator. -/
def firstLine : List α → Option (List α × List α)
  | [] => none
  | a :: stream =>
      if a = separator then some ([], stream)
      else (firstLine stream).map fun parts => (a :: parts.1, parts.2)

/-- The complete lines of a stream, and what follows the last separator. -/
def cut : List α → List (List α) × List α
  | [] => ([], [])
  | a :: stream =>
      if a = separator then ([] :: (cut stream).1, (cut stream).2)
      else match (cut stream).1 with
        | [] => ([], a :: (cut stream).2)
        | line :: lines => ((a :: line) :: lines, (cut stream).2)

/-- The lines that are found in chunks, one after the other, and what is kept. -/
def feed : List α → List (List α) → List (List α) × List α
  | kept, [] => ([], kept)
  | kept, chunk :: chunks =>
      ((cut separator (kept ++ chunk)).1 ++ (feed (cut separator (kept ++ chunk)).2 chunks).1,
        (feed (cut separator (kept ++ chunk)).2 chunks).2)

variable {separator}

/-! ## The first line -/

theorem firstLine_length {stream line rest : List α}
    (h : firstLine separator stream = some (line, rest)) : rest.length < stream.length := by
  induction stream generalizing line with
  | nil => cases h
  | cons a stream ih =>
      unfold firstLine at h
      split at h
      · cases h
        exact Nat.lt_succ_self _
      · obtain ⟨parts, hparts, hsame⟩ := Option.map_eq_some_iff.mp h
        cases hsame
        exact Nat.lt_succ_of_lt (ih hparts)

theorem firstLine_append {stream line rest : List α}
    (h : firstLine separator stream = some (line, rest)) (more : List α) :
    firstLine separator (stream ++ more) = some (line, rest ++ more) := by
  induction stream generalizing line with
  | nil => cases h
  | cons a stream ih =>
      rw [List.cons_append]
      unfold firstLine at h ⊢
      split at h
      case isTrue hsep =>
          cases h
          rw [if_pos hsep]
      case isFalse hsep =>
          obtain ⟨parts, hparts, hsame⟩ := Option.map_eq_some_iff.mp h
          cases hsame
          rw [if_neg hsep, ih hparts]
          rfl

theorem firstLine_eq_none_iff {stream : List α} :
    firstLine separator stream = none ↔ separator ∉ stream := by
  induction stream with
  | nil => simp [firstLine]
  | cons a stream ih =>
      unfold firstLine
      by_cases hsep : a = separator
      · simp [hsep]
      · simp [hsep, ih, Ne.symm hsep]

/-! ## Cutting a stream -/

/-- The stream is cut behind its first line. -/
theorem cut_of_firstLine {stream line rest : List α}
    (h : firstLine separator stream = some (line, rest)) :
    cut separator stream = (line :: (cut separator rest).1, (cut separator rest).2) := by
  induction stream generalizing line with
  | nil => cases h
  | cons a stream ih =>
      unfold firstLine at h
      rw [cut]
      split at h
      case isTrue hsep =>
          cases h
          rw [if_pos hsep]
      case isFalse hsep =>
          obtain ⟨parts, hparts, hsame⟩ := Option.map_eq_some_iff.mp h
          cases hsame
          rw [if_neg hsep, ih hparts]

theorem cut_of_not_mem {stream : List α} (h : separator ∉ stream) :
    cut separator stream = ([], stream) := by
  induction stream with
  | nil => rfl
  | cons a stream ih =>
      rw [List.mem_cons, not_or] at h
      rw [cut, if_neg (Ne.symm h.1), ih h.2]

theorem not_mem_cut (stream : List α) : separator ∉ (cut separator stream).2 := by
  induction stream with
  | nil => exact List.not_mem_nil
  | cons a stream ih =>
      rw [cut]
      split
      case isTrue hsep => exact ih
      case isFalse hsep =>
          split
          · rw [List.mem_cons, not_or]
            exact ⟨Ne.symm hsep, ih⟩
          · exact ih

theorem firstLine_joined {line : List α} (hline : separator ∉ line) (rest : List α) :
    firstLine separator (line ++ separator :: rest) = some (line, rest) := by
  induction line with
  | nil => rw [List.nil_append, firstLine, if_pos rfl]
  | cons a line ih =>
      rw [List.mem_cons, not_or] at hline
      rw [List.cons_append, firstLine, if_neg (Ne.symm hline.1), ih hline.2]
      rfl

/-- A stream in two parts is cut like the first part, and what that leaves is put before
the second one. -/
theorem cut_append (stream more : List α) :
    cut separator (stream ++ more) =
      ((cut separator stream).1 ++ (cut separator ((cut separator stream).2 ++ more)).1,
        (cut separator ((cut separator stream).2 ++ more)).2) := by
  induction hn : stream.length using Nat.strongRecOn generalizing stream with
  | _ n ih =>
      cases hfirst : firstLine separator stream with
      | none =>
          rw [cut_of_not_mem (firstLine_eq_none_iff.mp hfirst)]
          rfl
      | some parts =>
          have hshorter : parts.2.length < n := hn ▸ firstLine_length hfirst
          rw [cut_of_firstLine (firstLine_append hfirst more), cut_of_firstLine hfirst,
            ih parts.2.length hshorter parts.2 rfl]
          rfl

/-- The lines that are found in chunks are those of the whole stream. -/
theorem feed_eq_cut {kept : List α} (hkept : separator ∉ kept) (chunks : List (List α)) :
    feed separator kept chunks = cut separator (kept ++ chunks.flatten) := by
  induction chunks generalizing kept with
  | nil => rw [List.flatten_nil, List.append_nil, cut_of_not_mem hkept]; rfl
  | cons chunk chunks ih =>
      unfold feed
      rw [ih (not_mem_cut (kept ++ chunk)), List.flatten_cons, ← List.append_assoc,
        cut_append (kept ++ chunk)]

/-- Lines that were joined are found again, also behind the last separator. -/
theorem cut_joined {lines : List (List α)} (hlines : ∀ line ∈ lines, separator ∉ line)
    {last : List α} (hlast : separator ∉ last) :
    cut separator (lines.flatMap (fun line => line ++ [separator]) ++ last) = (lines, last) := by
  induction lines with
  | nil => exact cut_of_not_mem hlast
  | cons line lines ih =>
      have hrest := ih fun other hother => hlines other (List.mem_cons_of_mem _ hother)
      have hfirst := firstLine_joined (hlines line List.mem_cons_self)
        (lines.flatMap (fun line => line ++ [separator]) ++ last)
      rw [List.flatMap_cons, List.append_assoc, List.append_assoc, List.singleton_append,
        cut_of_firstLine hfirst, hrest]

end Lines

end Base
