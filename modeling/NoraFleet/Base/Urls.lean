import NoraFleet.Base.Flow
import NoraFleet.Base.Text

/-!
# Splitting URLs

`urllib.parse.urlparse` of a string: its scheme, network location, path and
fragment. A network location that is not plain ASCII or has brackets is checked
against Unicode normalization and the syntax of addresses; that check is a
parameter.
-/

namespace Base

/-- `s.partition(c)`: what is before the first `c`, and what is behind it. -/
def Text.partition (c : Nat) (s : PyStr) : PyStr × PyStr :=
  (s.takeWhile (· ≠ c), (s.dropWhile (· ≠ c)).tail)

/-- `s.lower()`, of ASCII letters. -/
def Text.lowerAscii (s : PyStr) : PyStr := s.map fun c => if 65 ≤ c ∧ c ≤ 90 then c + 32 else c

/-- The parts of a URL that are looked at. -/
structure ParseResult where
  scheme : PyStr
  netloc : PyStr
  path : PyStr
  fragment : PyStr
  deriving DecidableEq

namespace Urls

/-- `_check_bracketed_netloc` and `_checknetloc`: the network locations they accept. -/
abbrev NetlocCheck := PyStr → Bool

def isAlpha (c : Nat) : Bool := (65 ≤ c && c ≤ 90) || (97 ≤ c && c ≤ 122)

/-- `scheme_chars`. -/
def isSchemeChar (c : Nat) : Bool :=
  isAlpha c || (48 ≤ c && c ≤ 57) || c = 43 || c = 45 || c = 46

/-- The scheme, in lower case, and the rest. -/
def splitScheme (url : PyStr) : PyStr × PyStr :=
  let (before, behind) := Text.partition 58 url
  if url.contains 58 && before.head?.any isAlpha && before.all isSchemeChar then
    (Text.lowerAscii before, behind)
  else ([], url)

/-- What ends a network location. -/
def endsNetloc (c : Nat) : Bool := c = 47 || c = 63 || c = 35

/-- The network location, and the rest. -/
def splitNetloc (url : PyStr) : PyStr × PyStr :=
  match url with
  | 47 :: 47 :: rest => (rest.takeWhile (!endsNetloc ·), rest.dropWhile (!endsNetloc ·))
  | _ => ([], url)

/-- A network location passes: its brackets come in pairs, and where there are any, or
where it is not ASCII, it is looked at more closely. -/
def netlocPasses (check : NetlocCheck) (netloc : PyStr) : Bool :=
  netloc.contains 91 == netloc.contains 93 &&
    ((!netloc.contains 91 && netloc.all (· < 128)) || check netloc)

/-- The schemes whose paths have parameters. -/
def usesParams : List PyStr :=
  ["", "ftp", "hdl", "prospero", "http", "imap", "https", "shttp", "rtsp", "rtspu", "rtsps", "sip",
    "sips", "mms", "sftp", "tel"].map str

/-- `_splitparams(url)`: the path without the parameters of its last segment. -/
def withoutParams (path : PyStr) : PyStr :=
  let last := (path.reverse.takeWhile (· ≠ 47)).reverse
  path.take (path.length - last.length) ++ last.takeWhile (· ≠ 59)

/-- `urlparse(url)`. -/
def urlparse (check : NetlocCheck) (url : PyStr) : Except PyError ParseResult :=
  let url := (url.dropWhile (· ≤ 32)).filter fun c => c ≠ 9 && c ≠ 10 && c ≠ 13
  let (scheme, url) := splitScheme url
  let (netloc, url) := splitNetloc url
  let (url, fragment) := Text.partition 35 url
  let (path, _) := Text.partition 63 url
  if netlocPasses check netloc then
    .ok ⟨scheme, netloc, if usesParams.contains scheme then withoutParams path else path, fragment⟩
  else .error .valueError

theorem mem_of_mem_splitScheme {url : PyStr} {c : Nat} (h : c ∈ (splitScheme url).2) : c ∈ url := by
  unfold splitScheme at h
  dsimp only at h
  split at h
  · exact (List.dropWhile_suffix _).subset (List.mem_of_mem_tail h)
  · exact h

/-- A URL without leading blanks, and without tabs and newlines. -/
def stripped (url : PyStr) : PyStr :=
  (url.dropWhile (· ≤ 32)).filter fun c => c ≠ 9 && c ≠ 10 && c ≠ 13

theorem partition_isPrefix (separator : Nat) (s : PyStr) : (Text.partition separator s).1 <+: s :=
  List.takeWhile_prefix _

theorem withoutParams_isPrefix (path : PyStr) : withoutParams path <+: path := by
  unfold withoutParams
  dsimp only
  generalize hlast : (path.reverse.takeWhile fun c => decide (c ≠ 47)).reverse = last
  have hsuffix : last <:+ path := by
    rw [← hlast, ← List.reverse_prefix, List.reverse_reverse]
    exact List.takeWhile_prefix _
  obtain ⟨start, rfl⟩ := hsuffix
  rw [List.length_append, Nat.add_sub_cancel, List.take_left]
  exact (List.prefix_append_right_inj start).mpr (List.takeWhile_prefix _)

/-- A path is at the start of what is behind the network location. -/
theorem path_isPrefix {check : NetlocCheck} {url : PyStr} {parsed : ParseResult}
    (h : urlparse check url = .ok parsed) :
    parsed.path <+: (splitNetloc (splitScheme (stripped url)).2).2 := by
  unfold urlparse at h
  dsimp only at h
  split at h
  · obtain rfl := Except.ok.inj h
    have hpath := (partition_isPrefix 63 (Text.partition 35
      (splitNetloc (splitScheme (stripped url)).2).2).1).trans (partition_isPrefix 35 _)
    dsimp only
    split
    · exact (withoutParams_isPrefix _).trans hpath
    · exact hpath
  · cases h

theorem mem_of_mem_path {check : NetlocCheck} {url : PyStr} {parsed : ParseResult}
    (h : urlparse check url = .ok parsed) {c : Nat} (hc : c ∈ parsed.path) : c ∈ url := by
  have hnetloc : ∀ {s : PyStr}, c ∈ (splitNetloc s).2 → c ∈ s := by
    intro s hmem
    unfold splitNetloc at hmem
    split at hmem
    · exact List.mem_cons_of_mem _ (List.mem_cons_of_mem _ ((List.dropWhile_suffix _).subset hmem))
    · exact hmem
  have hstripped := mem_of_mem_splitScheme (hnetloc ((path_isPrefix h).subset hc))
  exact (List.dropWhile_suffix _).subset (List.mem_of_mem_filter hstripped)

/-! ## Paths of URLs with a network location -/

/-- Empty, or with a slash at the start. -/
def Rooted (path : PyStr) : Prop := path = [] ∨ path.head? = some 47

theorem splitNetloc_snd {url : PyStr} (h : url.head? = some 47) :
    (splitNetloc url).2 = [] ∨ ∃ c rest, (splitNetloc url).2 = c :: rest ∧ endsNetloc c = true := by
  unfold splitNetloc
  split
  · rename_i rest
    cases hdrop : rest.dropWhile (!endsNetloc ·) with
    | nil => exact .inl rfl
    | cons c others =>
        right
        refine ⟨c, others, rfl, ?_⟩
        have hhead := List.head?_dropWhile_not (!endsNetloc ·) rest
        rw [hdrop] at hhead
        simpa using hhead
  · cases url with
    | nil => cases h
    | cons c rest =>
        obtain rfl := Option.some.inj h
        exact .inr ⟨47, rest, rfl, rfl⟩

theorem head?_of_splitNetloc_ne_nil {url : PyStr} (h : (splitNetloc url).1 ≠ []) :
    url.head? = some 47 := by
  unfold splitNetloc at h
  split at h
  · rfl
  · exact absurd rfl h

/-- What is before a query and a fragment. -/
theorem rooted_partition {url : PyStr}
    (h : url = [] ∨ ∃ c rest, url = c :: rest ∧ endsNetloc c = true) :
    Rooted (Text.partition 63 (Text.partition 35 url).1).1 := by
  rcases h with rfl | ⟨c, rest, rfl, hends⟩
  · exact .inl rfl
  · unfold endsNetloc at hends
    simp only [Bool.or_eq_true, decide_eq_true_eq] at hends
    rcases hends with (rfl | rfl) | rfl
    · exact .inr rfl
    · exact .inl rfl
    · exact .inl rfl

theorem rooted_withoutParams {path : PyStr} (h : Rooted path) : Rooted (withoutParams path) := by
  rcases h with rfl | hslash
  · exact .inl rfl
  · obtain ⟨rest, rfl⟩ : ∃ rest, path = 47 :: rest := by
      cases path with
      | nil => cases hslash
      | cons c rest =>
          obtain rfl := Option.some.inj hslash
          exact ⟨rest, rfl⟩
    right
    unfold withoutParams
    dsimp only
    have hprefix := List.takeWhile_prefix (l := (47 :: rest).reverse)
      (p := fun c => decide (c ≠ 47))
    have hshort : ((47 :: rest).reverse.takeWhile fun c => decide (c ≠ 47)).reverse.length <
        (47 :: rest).length := by
      rw [List.length_reverse, ← @List.length_reverse _ (47 :: rest)]
      refine lt_of_le_of_ne hprefix.length_le fun hlength => ?_
      have hmem : 47 ∈ (47 :: rest).reverse := by simp
      rw [← hprefix.eq_of_length hlength] at hmem
      have hnot := List.all_eq_true.mp List.all_takeWhile 47 hmem
      simp at hnot
    obtain ⟨n, hn⟩ := Nat.exists_eq_add_of_lt hshort
    rw [show (47 :: rest).length - ((47 :: rest).reverse.takeWhile
      fun c => decide (c ≠ 47)).reverse.length = n + 1 by omega]
    rfl

/-- The path of a URL is rooted where two slashes or one begin what is behind the scheme. -/
theorem rooted_path {check : NetlocCheck} {url : PyStr} {parsed : ParseResult}
    (h : urlparse check url = .ok parsed)
    (hslash : (splitScheme (stripped url)).2.head? = some 47) : Rooted parsed.path := by
  have hrooted := rooted_partition (splitNetloc_snd hslash)
  unfold urlparse at h
  dsimp only at h
  split at h
  · obtain rfl := Except.ok.inj h
    dsimp only
    split
    · exact rooted_withoutParams hrooted
    · exact hrooted
  · cases h

/-- A network location stands behind slashes. -/
theorem head?_of_netloc_ne_nil {check : NetlocCheck} {url : PyStr} {parsed : ParseResult}
    (h : urlparse check url = .ok parsed) (hnetloc : parsed.netloc ≠ []) :
    (splitScheme (stripped url)).2.head? = some 47 := by
  refine head?_of_splitNetloc_ne_nil ?_
  unfold urlparse at h
  dsimp only at h
  split at h
  · obtain rfl := Except.ok.inj h
    exact hnetloc
  · cases h

theorem mem_of_netloc_ne_nil {check : NetlocCheck} {url : PyStr} {parsed : ParseResult}
    (h : urlparse check url = .ok parsed) (hnetloc : parsed.netloc ≠ []) : 47 ∈ url := by
  have hstripped := mem_of_mem_splitScheme (List.mem_of_head? (head?_of_netloc_ne_nil h hnetloc))
  exact (List.dropWhile_suffix _).subset (List.mem_of_mem_filter hstripped)

/-! ## URLs without a slash behind the scheme -/

theorem splitNetloc_of_head?_ne {url : PyStr} (h : url.head? ≠ some 47) :
    splitNetloc url = ([], url) := by
  unfold splitNetloc
  split
  · exact absurd rfl h
  · rfl

/-- Where no slash stands behind the scheme, the path does not begin with one. -/
theorem path_of_head?_ne {check : NetlocCheck} {url : PyStr} {parsed : ParseResult}
    (h : urlparse check url = .ok parsed)
    (hslash : (splitScheme (stripped url)).2.head? ≠ some 47) : parsed.path.head? ≠ some 47 := by
  intro hhead
  obtain ⟨rest, hrest⟩ := path_isPrefix h
  rw [splitNetloc_of_head?_ne hslash] at hrest
  dsimp only at hrest
  rw [← hrest, List.head?_append, hhead] at hslash
  exact hslash rfl

end Urls

end Base
