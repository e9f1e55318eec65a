/-
  GraphScript.Proofs.Disk.Naming — a path without the parts that say nothing names the same.

  A file is looked for by its path as it is given, and opened by its tidy path. The tidy path starts
  at the same place, is no longer, and has the parts of the other one that say something; to follow
  it, no more folders need to be there. So it arrives wherever the other one arrives.

  - `resolve_tidy`
-/
import GraphScript.Proofs.Disk.Writing
import GraphScript.Proofs.Text.Splitting
import Mathlib.Data.List.TakeWhile
import Mathlib.Data.String.Basic

namespace GraphScript

open Faults

namespace PathText

section

variable {s part : String} {c : Char}

/-! ## Parts -/

theorem parts_ne_nil (s : String) : parts s ≠ [] := mt List.map_eq_nil_iff.mp (List.splitOn_ne_nil _ _)

theorem not_mem_of_mem_parts (h : part ∈ parts s) : '/' ∉ part.toList := by
  obtain ⟨word, hword, rfl⟩ := List.mem_map.mp h
  rw [String.toList_ofList]
  exact Text.not_mem_of_mem_splitOn hword

theorem mem_names : part ∈ names s ↔ part ∈ parts s ∧ saysNothing part = false := by
  simp [names]

theorem ne_empty_of_mem_names (h : part ∈ names s) : part ≠ "" := by
  rintro rfl
  exact absurd (mem_names.mp h).2 (by decide)

theorem exists_mem_parts (hc : c ≠ '/') : (∃ part ∈ parts s, c ∈ part.toList) ↔ c ∈ s.toList := by
  rw [← Text.exists_mem_splitOn hc, parts]
  simp

theorem joined_parts (s : String) : Text.joined "/" (parts s) = s :=
  String.toList_inj.mp (Text.joined_splitOn (by decide) s.toList)

theorem parts_joined {ns : List String} (hne : ns ≠ []) (h : ∀ n ∈ ns, '/' ∉ n.toList) :
    parts (Text.joined "/" ns) = ns := by
  have hsplit : (Text.joined "/" ns).toList.splitOn '/' = ns.flatMap fun n => [n.toList] := by
    rw [Text.splitOn_joined (by decide) hne]
    exact List.flatMap_congr fun n hn => List.splitOn_eq_singleton (h n hn)
  rw [parts, hsplit, ← List.map_eq_flatMap, List.map_map]
  simp

theorem parts_slash (s : String) : parts ("/" ++ s) = "" :: parts s := by
  rw [parts, String.toList_append]
  exact congrArg (List.map String.ofList) (List.splitOn_append_cons_self [] s.toList)

/-! ## The start -/

def slashes (n : Nat) : String := String.ofList (List.replicate n '/')

theorem parts_slashes (n : Nat) (s : String) : parts (slashes n ++ s) = List.replicate n "" ++ parts s := by
  induction n with
  | zero =>
    rw [show slashes 0 = "" from rfl, String.empty_append]
    rfl
  | succ n ih =>
    have hslash : slashes (n + 1) ++ s = "/" ++ (slashes n ++ s) := by
      refine String.toList_inj.mp ?_
      simp [slashes, List.replicate_succ]
    rw [hslash, parts_slash, ih]
    rfl

theorem slashes_eq_empty {n : Nat} : slashes n = "" ↔ n = 0 := by
  rw [slashes, ← String.toList_inj, String.toList_ofList, String.toList_empty, List.replicate_eq_nil_iff]

/-- The slashes that a path starts with, and those of them that its tidy form keeps: some, if there are any. -/
theorem exists_slashes (s : String) : ∃ kept given rest, root s = slashes kept ∧ s = slashes given ++ rest ∧
    rest.toList.head? ≠ some '/' ∧ kept ≤ given ∧ (kept = 0 → given = 0) := by
  have hstart : s.toList.takeWhile (· = '/') = List.replicate (s.toList.takeWhile (· = '/')).length '/' :=
    List.eq_replicate_of_mem fun c hc => by simpa using List.mem_takeWhile_imp hc
  have hs : s = slashes (s.toList.takeWhile (· = '/')).length ++ String.ofList (s.toList.dropWhile (· = '/')) := by
    refine String.toList_inj.mp ?_
    rw [String.toList_append, slashes, String.toList_ofList, String.toList_ofList, ← hstart,
      List.takeWhile_append_dropWhile]
  have hrest : (String.ofList (s.toList.dropWhile (· = '/'))).toList.head? ≠ some '/' := by
    rw [String.toList_ofList]
    intro h
    have hnot := List.head?_dropWhile_not (fun c => decide (c = '/')) s.toList
    rw [h] at hnot
    cases hnot
  have hroot : ∃ kept, root s = slashes kept ∧ kept ≤ (s.toList.takeWhile (· = '/')).length ∧
      (kept = 0 → (s.toList.takeWhile (· = '/')).length = 0) := by
    unfold root
    split
    · rename_i h
      exact ⟨0, rfl, Nat.zero_le _, fun _ => h⟩
    · rename_i h
      exact ⟨2, rfl, h.ge, nofun⟩
    · rename_i h _
      exact ⟨1, rfl, Nat.one_le_iff_ne_zero.mpr h, nofun⟩
  obtain ⟨kept, hkept, hle, hzero⟩ := hroot
  exact ⟨kept, _, _, hkept, hs, hrest, hle, hzero⟩

/-! ## Tidy paths -/

/-- A tidy path has the parts that say something, behind parts that do not. -/
theorem parts_tidy (s : String) : ∃ silent, (∀ part ∈ silent, saysNothing part = true) ∧
    parts (tidy s) = silent ++ names s := by
  obtain ⟨kept, given, rest, hroot, -, -, -, -⟩ := exists_slashes s
  have hempty : ∀ part ∈ List.replicate kept "", saysNothing part = true := by
    intro part h
    rw [List.eq_of_mem_replicate h]
    decide
  unfold tidy ofNames
  split
  · rename_i h
    exact ⟨["."], by decide, by rw [h.2]; decide⟩
  · rw [hroot, parts_slashes]
    by_cases hnames : names s = []
    · refine ⟨List.replicate kept "" ++ [""], List.forall_mem_append.mpr ⟨hempty, by decide⟩, ?_⟩
      rw [hnames, List.append_nil]
      rfl
    · rw [parts_joined hnames fun n hn => not_mem_of_mem_parts (mem_names.mp hn).1]
      exact ⟨_, hempty, rfl⟩

theorem names_eq_of_slashes {n : Nat} {rest : String} : names (slashes n ++ rest) = names rest := by
  have hempty : (List.replicate n "").filter (!saysNothing ·) = [] := by
    refine List.filter_eq_nil_iff.mpr fun part h => ?_
    rw [List.eq_of_mem_replicate h]
    decide
  rw [names, parts_slashes, List.filter_append, hempty, List.nil_append, names]

/-- A character of a path that says something is in its tidy form too. -/
theorem mem_tidy (hslash : c ≠ '/') (hdot : c ≠ '.') (h : c ∈ s.toList) : c ∈ (tidy s).toList := by
  obtain ⟨part, hpart, hc⟩ := (exists_mem_parts hslash).mpr h
  have hsays : saysNothing part = false := by
    rw [← Bool.not_eq_true, saysNothing, Bool.or_eq_true, decide_eq_true_eq, decide_eq_true_eq]
    intro hempty
    rcases hempty with rfl | rfl
    · exact absurd hc List.not_mem_nil
    · exact hdot (List.mem_singleton.mp hc)
  obtain ⟨silent, -, hparts⟩ := parts_tidy s
  refine (exists_mem_parts hslash).mp ⟨part, ?_, hc⟩
  rw [hparts]
  exact List.mem_append_right _ (mem_names.mpr ⟨hpart, hsays⟩)

/-- Without a root and names there is at least one dot. -/
theorem dot_mem_of_names_nil (hs : s ≠ "") (hhead : s.toList.head? ≠ some '/') (hnames : names s = []) :
    '.' ∈ s.toList := by
  obtain ⟨c, cs, hcs⟩ := List.exists_cons_of_ne_nil (mt String.toList_eq_nil_iff.mp hs)
  have hmem : c ∈ s.toList := hcs ▸ List.mem_cons_self ..
  have hslash : c ≠ '/' := by
    rintro rfl
    exact hhead (by rw [hcs]; rfl)
  obtain ⟨part, hpart, hc⟩ := (exists_mem_parts hslash).mpr hmem
  have hsilent : saysNothing part = true := by
    by_contra hsays
    have hname := mem_names.mpr ⟨hpart, Bool.eq_false_iff.mpr hsays⟩
    rw [hnames] at hname
    exact absurd hname List.not_mem_nil
  rw [saysNothing, Bool.or_eq_true, decide_eq_true_eq, decide_eq_true_eq] at hsilent
  rcases hsilent with rfl | rfl
  · exact absurd hc List.not_mem_nil
  · rwa [show c = '.' from List.mem_singleton.mp hc] at hmem

theorem head?_slashes {n : Nat} {rest : String} (h : rest.toList.head? ≠ some '/') :
    (slashes n ++ rest).toList.head? = some '/' ↔ n ≠ 0 := by
  rw [slashes, String.toList_append, String.toList_ofList]
  cases n with
  | zero => simpa using h
  | succ n => simp [List.replicate_succ]

theorem head?_joined_names (s : String) : (Text.joined "/" (names s)).toList.head? ≠ some '/' := by
  cases hnames : names s with
  | nil => exact nofun
  | cons n ns =>
    have hn : n ∈ names s := hnames ▸ List.mem_cons_self ..
    obtain ⟨c, cs, hcs⟩ := List.exists_cons_of_ne_nil (mt String.toList_eq_nil_iff.mp (ne_empty_of_mem_names hn))
    rw [Text.toList_joined_cons, hcs]
    intro hc
    have hslash := not_mem_of_mem_parts (mem_names.mp hn).1
    rw [hcs, show c = '/' from Option.some.inj hc] at hslash
    exact hslash (List.mem_cons_self ..)

/-- Both start at the root, or neither does. -/
theorem head?_tidy (s : String) : (tidy s).toList.head? = some '/' ↔ s.toList.head? = some '/' := by
  obtain ⟨kept, given, rest, hroot, heq, hrest, hle, hzero⟩ := exists_slashes s
  have hboth : kept ≠ 0 ↔ given ≠ 0 := by omega
  have hs := head?_slashes (n := given) hrest
  rw [← heq] at hs
  rw [hs, ← hboth, tidy, ofNames]
  split
  · rename_i h
    simp [slashes_eq_empty.mp (hroot ▸ h.1)]
  · rw [hroot]
    exact head?_slashes (head?_joined_names s)

/-- A tidy path leaves out characters and adds none. -/
theorem tidy_sublist (hs : s ≠ "") : (tidy s).toList.Sublist s.toList := by
  obtain ⟨kept, given, rest, hroot, heq, hrest, hle, hzero⟩ := exists_slashes s
  unfold tidy ofNames
  split
  · rename_i h
    have hgiven : given = 0 := hzero (slashes_eq_empty.mp (hroot ▸ h.1))
    have hhead : s.toList.head? ≠ some '/' := by
      rw [heq, hgiven]
      exact hrest
    exact List.singleton_sublist.mpr (dot_mem_of_names_nil hs hhead h.2)
  · have hnames : (Text.joined "/" (names s)).toList.Sublist rest.toList := by
      have hjoined := Text.joined_sublist "/" (List.filter_sublist (p := (!saysNothing ·)) (l := parts rest))
      rw [joined_parts] at hjoined
      rw [heq, names_eq_of_slashes]
      exact hjoined
    have hslashes : (slashes kept).toList.Sublist (slashes given).toList := by
      rw [slashes, slashes, String.toList_ofList, String.toList_ofList]
      exact (List.replicate_sublist_replicate '/').mpr hle
    calc ((root s ++ Text.joined "/" (names s)).toList).Sublist ((slashes given).toList ++ rest.toList) := by
          rw [hroot, String.toList_append]
          exact hslashes.append hnames
      _ = s.toList := by rw [← String.toList_append, ← heq]

theorem tidy_ne_empty (s : String) : tidy s ≠ "" := by
  unfold tidy ofNames
  split
  · decide
  · rename_i h
    intro hempty
    rw [← String.toList_inj, String.toList_append, String.toList_empty, List.append_eq_nil_iff] at hempty
    cases hnames : names s with
    | nil => exact h ⟨String.toList_eq_nil_iff.mp hempty.1, hnames⟩
    | cons n ns =>
      have hn : n ≠ "" := ne_empty_of_mem_names (hnames ▸ List.mem_cons_self ..)
      rw [hnames] at hempty
      exact Text.joined_ne_empty hn (String.toList_eq_nil_iff.mp hempty.2)

end

end PathText

/-! ## On a disk -/

namespace Disk

open PathText

section

variable {d : Disk} {p q : Path} {s : String}

theorem node_of_follow {parts : List String} (hne : parts ≠ []) (h : d.follow p parts = .ok q) :
    d.node p = .folder := by
  cases parts with
  | nil => exact absurd rfl hne
  | cons part rest =>
    rw [follow] at h
    split at h
    · cases h
    · cases h
    · assumption

/-- Parts that say nothing lead nowhere else. -/
theorem follow_silent {silent parts : List String} (hsilent : ∀ part ∈ silent, saysNothing part = true)
    (hp : d.node p = .folder) : d.follow p (silent ++ parts) = d.follow p parts := by
  induction silent with
  | nil => rfl
  | cons part silent ih =>
    rw [List.cons_append, follow, hp]
    dsimp only
    rw [if_pos (hsilent part (List.mem_cons_self ..)), ih fun x hx => hsilent x (List.mem_cons_of_mem _ hx)]

theorem follow_filter {parts : List String} (h : d.follow p parts = .ok q) :
    d.follow p (parts.filter (!saysNothing ·)) = .ok q := by
  induction parts generalizing p with
  | nil => exact h
  | cons part rest ih =>
    have hp := node_of_follow (List.cons_ne_nil _ _) h
    rw [follow, hp] at h
    dsimp only at h
    by_cases hsilent : saysNothing part = true
    · rw [if_pos hsilent] at h
      rw [List.filter_cons_of_neg (by simp [hsilent])]
      exact ih h
    · rw [if_neg hsilent] at h
      rw [List.filter_cons_of_pos (by simp [hsilent]), follow, hp]
      dsimp only
      rw [if_neg hsilent]
      split at h
      · rename_i hup
        rw [if_pos hup]
        exact ih h
      · rename_i hup
        rw [if_neg hup]
        split at h
        · cases h
        · rename_i hlong
          rw [if_neg hlong]
          exact ih h

theorem resolve_eq_ok : d.resolve s = .ok p ↔ '\x00' ∉ s.toList ∧ s ≠ "" ∧ s.utf8ByteSize ≤ maxPathBytes ∧
    d.follow (if s.toList.head? = some '/' then [] else d.here) (parts s) = .ok p := by
  unfold resolve
  by_cases hnull : '\x00' ∈ s.toList
  · simp [hnull]
  · by_cases hempty : s = ""
    · simp [hempty]
    · by_cases hsize : maxPathBytes < s.utf8ByteSize
      · simp [hnull, hempty, hsize, Nat.not_le.mpr hsize]
      · simp [hnull, hempty, hsize, Nat.not_lt.mp hsize]

theorem follow_ne_nullCharacter {parts : List String} : d.follow p parts ≠ .error .nullCharacter := by
  induction parts generalizing p with
  | nil => exact nofun
  | cons part rest ih =>
    intro h
    rw [follow] at h
    split at h
    · cases h
    · cases h
    · split at h
      · exact ih h
      · split at h
        · exact ih h
        · split at h
          · cases h
          · exact ih h

/-- The null character is what a path is refused for only if it has one. -/
theorem null_mem_of_resolve (h : d.resolve s = .error .nullCharacter) : '\x00' ∈ s.toList := by
  unfold resolve at h
  split at h
  · rename_i hnull
    exact List.contains_iff_mem.mp hnull
  · split at h
    · cases h
    · split at h
      · cases h
      · exact absurd h follow_ne_nullCharacter

/-- What a path arrives at, its tidy form arrives at. -/
theorem resolve_tidy (h : d.resolve s = .ok p) : d.resolve (tidy s) = .ok p := by
  obtain ⟨hnull, hempty, hsize, hfollow⟩ := resolve_eq_ok.mp h
  have hsub := tidy_sublist hempty
  refine resolve_eq_ok.mpr ⟨fun hmem => hnull (hsub.subset hmem), tidy_ne_empty s, ?_, ?_⟩
  · rw [← String.utf8Len_toList] at hsize ⊢
    exact (String.utf8Len_le_of_sublist hsub).trans hsize
  · obtain ⟨silent, hsilent, hparts⟩ := parts_tidy s
    rw [hparts, if_congr (head?_tidy s) rfl rfl, follow_silent hsilent (node_of_follow (parts_ne_nil s) hfollow)]
    exact follow_filter hfollow

theorem read_of_nodeNamed {content : String} (h : d.nodeNamed s = .ok (.file content)) :
    d.read s = .ok (Text.read content) := by
  obtain ⟨p, hp, hnode⟩ := map_eq_ok.mp h
  rw [read, resolve_tidy hp]
  show d.readPath p = _
  rw [readPath, hnode]

/-- Where a file can be written by its tidy path, nothing speaks against the path as it is given. -/
theorem nodeNamed_of_resolve_tidy (h : d.resolve (tidy s) = .ok p) (hp : d.node p ≠ .folder) :
    d.nodeNamed s ≠ .ok .folder ∧ d.nodeNamed s ≠ .error .nullCharacter := by
  constructor
  · intro hfolder
    obtain ⟨q, hq, hnode⟩ := map_eq_ok.mp hfolder
    rw [Except.ok.inj ((resolve_tidy hq).symm.trans h)] at hnode
    exact hp hnode
  · intro hnull
    have hresolve : d.resolve s = .error .nullCharacter := by
      unfold nodeNamed at hnull
      cases hr : d.resolve s with
      | ok q =>
        rw [hr] at hnull
        cases hnull
      | error fault =>
        rw [hr] at hnull
        exact congrArg Except.error (Except.error.inj hnull)
    exact (resolve_eq_ok.mp h).1 (mem_tidy (by decide) (by decide) (null_mem_of_resolve hresolve))

end

end Disk

end GraphScript
