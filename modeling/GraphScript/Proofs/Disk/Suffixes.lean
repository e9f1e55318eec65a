/-
  GraphScript.Proofs.Disk.Suffixes — another suffix names another file.

  A name is what stands before its suffix, which is never nothing, and the suffix. The path with
  another suffix starts where the given one starts and has its names but for the last. It ends in
  that folder, too, since a name with a dotted suffix does not lead up. So it names a given file
  exactly where the suffix is the one that the file has.

  - `withSuffix?_eq_none`: which dotted suffixes cannot stand at the end of a name.
  - `resolve_withSuffix`: when the path with another suffix names the same file.
-/
import GraphScript.Proofs.Disk.Naming

namespace GraphScript

open Faults

namespace PathText

section

variable {s part suffix path : String} {c : Char}

/-! ## Names and their suffixes -/

/-- What stands before the suffix of the last name. -/
def stem (s : String) : String := String.ofList (cutSuffix (fileName s).toList).1

/-- A suffix that starts with a dot. -/
def IsDotted (suffix : String) : Prop := suffix.toList.head? = some '.'

theorem IsDotted.ne_empty (h : IsDotted suffix) : suffix ≠ "" := by
  rintro rfl
  cases h

/-- What stands behind the last dot of a name is all of it, or there is such a dot. -/
theorem exists_last_dot (name : List Char) : ∃ last before,
    (name.reverse.takeWhile (· ≠ '.')).reverse = last ∧ (name = last ∨ name = before ++ '.' :: last) := by
  have hname : (name.reverse.dropWhile (· ≠ '.')).reverse ++ (name.reverse.takeWhile (· ≠ '.')).reverse = name := by
    rw [← List.reverse_append, List.takeWhile_append_dropWhile, List.reverse_reverse]
  refine ⟨_, (name.reverse.dropWhile (· ≠ '.')).tail.reverse, rfl, ?_⟩
  cases hdrop : name.reverse.dropWhile (· ≠ '.') with
  | nil =>
    rw [hdrop] at hname
    exact .inl hname.symm
  | cons dot rest =>
    have hdot := List.head?_dropWhile_not (fun c => decide (c ≠ '.')) name.reverse
    rw [hdrop] at hdot hname
    have hdot : dot = '.' := by simpa using hdot
    subst hdot
    rw [List.reverse_cons, List.append_assoc] at hname
    exact .inr hname.symm

/-- A name is cut nowhere, or at a dot with something before it and after it. -/
theorem cutSuffix_cases (name : List Char) : cutSuffix name = (name, []) ∨
    ∃ before last, before ≠ [] ∧ last ≠ [] ∧ name = before ++ '.' :: last ∧ cutSuffix name = (before, '.' :: last) := by
  obtain ⟨last, before, hlast, hname⟩ := exists_last_dot name
  unfold cutSuffix
  rw [hlast]
  dsimp only
  split
  · exact .inl rfl
  · rename_i hcut
    obtain ⟨hne, hlong⟩ := not_or.mp hcut
    obtain rfl | rfl := hname
    · omega
    · rw [List.length_append, List.length_cons] at hlong ⊢
      refine .inr ⟨before, last, ?_, hne, rfl, ?_⟩
      · rintro rfl
        simp at hlong
      · rw [show before.length + (last.length + 1) - last.length - 1 = before.length by omega, List.take_left]

theorem stem_append_suffix (s : String) : stem s ++ PathText.suffix s = fileName s := by
  refine String.toList_inj.mp ?_
  rw [stem, PathText.suffix, String.toList_append, String.toList_ofList, String.toList_ofList]
  obtain hcut | ⟨before, last, -, -, hname, hcut⟩ := cutSuffix_cases (fileName s).toList
  · rw [hcut, List.append_nil]
  · rw [hcut, hname]

theorem stem_ne_empty (h : fileName s ≠ "") : stem s ≠ "" := by
  have hne : (fileName s).toList ≠ [] := mt String.toList_eq_nil_iff.mp h
  refine mt String.toList_eq_nil_iff.mpr ?_
  rw [stem, String.toList_ofList]
  obtain hcut | ⟨before, last, hbefore, -, -, hcut⟩ := cutSuffix_cases (fileName s).toList
  · rwa [hcut]
  · rwa [hcut]

/-- A name with a dotted suffix behind something is not one of those that lead elsewhere. -/
theorem leads_on {before : String} (hbefore : before ≠ "") (hdotted : IsDotted suffix) (hdot : suffix ≠ ".") :
    saysNothing (before ++ suffix) = false ∧ before ++ suffix ≠ ".." := by
  obtain ⟨b, bs, hb⟩ := List.exists_cons_of_ne_nil (mt String.toList_eq_nil_iff.mp hbefore)
  obtain ⟨rest, hsuffix⟩ := List.head?_eq_some_iff.mp hdotted
  have hlong (t : String) (ht : t.toList.length < 3) : before ++ suffix ≠ t := by
    rintro rfl
    rw [String.toList_append, hb, hsuffix] at ht
    cases rest with
    | nil => exact hdot (String.toList_inj.mp hsuffix)
    | cons r rs =>
      simp only [List.length_append, List.length_cons] at ht
      omega
  rw [saysNothing, Bool.or_eq_false_iff, decide_eq_false_iff_not, decide_eq_false_iff_not]
  exact ⟨⟨hlong _ (by decide), hlong _ (by decide)⟩, hlong _ (by decide)⟩

/-! ## Suffixes that can be used -/

theorem isSuffix_of_dotted (h : IsDotted suffix) : isSuffix suffix = true ↔ suffix ≠ "." ∧ '/' ∉ suffix.toList := by
  have hhead : suffix.toList.head? = some '.' := h
  simp [isSuffix, hhead, h.ne_empty, and_comm]

/-- A dotted suffix cannot stand at the end of a name where it is the dot alone or has a slash, whatever the path. -/
theorem withSuffix?_eq_none (h : IsDotted suffix) (s : String) :
    withSuffix? s suffix = none ↔ suffix = "." ∨ '/' ∈ suffix.toList := by
  unfold withSuffix?
  rw [← not_iff_not, not_or, ← isSuffix_of_dotted h]
  split <;> simp_all

theorem withSuffix?_eq_some : withSuffix? s suffix = some path ↔
    isSuffix suffix = true ∧ path = ofNames (root s) ((names s).dropLast ++ [stem s ++ suffix]) := by
  unfold withSuffix?
  split
  · rename_i h
    rw [Option.some.injEq, h, eq_self, true_and, eq_comm]
    rfl
  · rename_i h
    exact iff_of_false nofun fun hs => h hs.1

/-! ## Names of paths -/

theorem names_eq_concat (h : names s ≠ []) : names s = (names s).dropLast ++ [fileName s] := by
  rw [fileName, List.getLast?_eq_some_getLast h, Option.getD_some, List.dropLast_append_getLast h]

theorem fileName_mem (h : names s ≠ []) : fileName s ∈ names s := by
  rw [fileName, List.getLast?_eq_some_getLast h]
  exact List.getLast_mem h

theorem names_tidy (s : String) : names (tidy s) = names s := by
  obtain ⟨silent, hsilent, hparts⟩ := parts_tidy s
  have hnone : silent.filter (!saysNothing ·) = [] := List.filter_eq_nil_iff.mpr fun part h => by simp [hsilent part h]
  have hall : (names s).filter (!saysNothing ·) = names s :=
    List.filter_eq_self.mpr fun part h => by simp [(mem_names.mp h).2]
  calc names (tidy s) = (silent ++ names s).filter (!saysNothing ·) := by rw [← hparts, names]
    _ = names s := by rw [List.filter_append, hnone, hall, List.nil_append]

/-- A path that is made of names has them, and starts where the other one starts. -/
theorem names_ofNames {ns : List String} (hne : ns ≠ [])
    (hns : ∀ n ∈ ns, '/' ∉ n.toList ∧ saysNothing n = false) (s : String) :
    names (ofNames (root s) ns) = ns ∧
      ((ofNames (root s) ns).toList.head? = some '/' ↔ s.toList.head? = some '/') := by
  obtain ⟨kept, given, rest, hroot, heq, hrest, hle, hzero⟩ := exists_slashes s
  have hparts : parts (Text.joined "/" ns) = ns := parts_joined hne fun n hn => (hns n hn).1
  have hnames : names (Text.joined "/" ns) = ns := by
    rw [names, hparts]
    exact List.filter_eq_self.mpr fun n hn => by simp [(hns n hn).2]
  have hhead : (Text.joined "/" ns).toList.head? ≠ some '/' := hnames ▸ head?_joined_names (Text.joined "/" ns)
  rw [ofNames, if_neg fun h => hne h.2, hroot]
  refine ⟨names_eq_of_slashes.trans hnames, (head?_slashes hhead).trans ?_⟩
  have hs := head?_slashes (n := given) hrest
  rw [← heq] at hs
  rw [hs]
  omega

theorem not_slash_of_append {a b : String} (h : '/' ∉ (a ++ b).toList) : '/' ∉ a.toList ∧ '/' ∉ b.toList := by
  rw [String.toList_append, List.mem_append] at h
  exact not_or.mp h

/-- The path with another suffix has the names of the given one but for the last, and starts where that starts. -/
theorem names_withSuffix (hs : names s ≠ []) (hdotted : IsDotted suffix) (hpath : withSuffix? s suffix = some path) :
    names path = (names s).dropLast ++ [stem s ++ suffix] ∧
      (path.toList.head? = some '/' ↔ s.toList.head? = some '/') := by
  obtain ⟨hsuffix, rfl⟩ := withSuffix?_eq_some.mp hpath
  obtain ⟨hdot, hslash⟩ := (isSuffix_of_dotted hdotted).mp hsuffix
  have hlast := fileName_mem hs
  refine names_ofNames (List.append_ne_nil_of_right_ne_nil _ (List.cons_ne_nil _ _)) (fun n hn => ?_) s
  rcases List.mem_append.mp hn with hn | hn
  · obtain ⟨hpart, hnamed⟩ := mem_names.mp (List.mem_of_mem_dropLast hn)
    exact ⟨not_mem_of_mem_parts hpart, hnamed⟩
  · obtain rfl := List.mem_singleton.mp hn
    have hname := not_mem_of_mem_parts (mem_names.mp hlast).1
    rw [← stem_append_suffix] at hname
    refine ⟨?_, (leads_on (stem_ne_empty (ne_empty_of_mem_names hlast)) hdotted hdot).1⟩
    rw [String.toList_append, List.mem_append, not_or]
    exact ⟨(not_slash_of_append hname).1, hslash⟩

theorem names_ne_nil_of_suffix (h : PathText.suffix s ≠ "") : names s ≠ [] := by
  intro hnil
  refine h ?_
  rw [PathText.suffix, fileName, hnil]
  rfl

/-- In the place of its own suffix, it stays the path that it is. -/
theorem withSuffix?_suffix (h : PathText.suffix s ≠ "") : withSuffix? s (PathText.suffix s) = some (tidy s) := by
  have hs := names_ne_nil_of_suffix h
  have hname := not_mem_of_mem_parts (mem_names.mp (fileName_mem hs)).1
  rw [← stem_append_suffix] at hname
  refine withSuffix?_eq_some.mpr ⟨?_, ?_⟩
  · obtain hcut | ⟨before, last, -, hlast, -, hcut⟩ := cutSuffix_cases (fileName s).toList
    · rw [PathText.suffix, hcut] at h
      exact absurd rfl h
    · have hdotted : IsDotted (PathText.suffix s) := by
        rw [IsDotted, PathText.suffix, hcut]
        simp
      refine (isSuffix_of_dotted hdotted).mpr ⟨fun hdot => hlast ?_, (not_slash_of_append hname).2⟩
      rw [PathText.suffix, hcut, ← String.toList_inj, String.toList_ofList] at hdot
      exact (List.cons.inj hdot).2
  · rw [stem_append_suffix, ← names_eq_concat hs, tidy]

/-- What is in the path with another suffix is in the given path or in the suffix. -/
theorem mem_tidy_withSuffix (hs : names s ≠ []) (hdotted : IsDotted suffix) (hpath : withSuffix? s suffix = some path)
    (hslash : c ≠ '/') (hdot : c ≠ '.') (hc : c ∉ s.toList) : c ∈ (tidy path).toList ↔ c ∈ suffix.toList := by
  obtain ⟨hnames, -⟩ := names_withSuffix hs hdotted hpath
  have hgiven : ∀ n ∈ names s, c ∉ n.toList := fun n hn h =>
    hc ((exists_mem_parts hslash).mp ⟨n, (mem_names.mp hn).1, h⟩)
  constructor
  · intro h
    obtain ⟨part, hpart, hmem⟩ := (exists_mem_parts hslash).mpr h
    have hname : part ∈ names path := by
      rw [← names_tidy, mem_names]
      refine ⟨hpart, Bool.eq_false_iff.mpr fun hsilent => ?_⟩
      rw [saysNothing, Bool.or_eq_true, decide_eq_true_eq, decide_eq_true_eq] at hsilent
      rcases hsilent with rfl | rfl
      · exact absurd hmem List.not_mem_nil
      · exact hdot (List.mem_singleton.mp hmem)
    rw [hnames] at hname
    rcases List.mem_append.mp hname with hname | hname
    · exact absurd hmem (hgiven part (List.mem_of_mem_dropLast hname))
    · rw [List.mem_singleton.mp hname, String.toList_append, List.mem_append] at hmem
      refine hmem.resolve_left fun hstem => hgiven _ (fileName_mem hs) ?_
      rw [← stem_append_suffix, String.toList_append]
      exact List.mem_append_left _ hstem
  · intro h
    refine (exists_mem_parts hslash).mp ⟨stem s ++ suffix, ?_, ?_⟩
    · refine (mem_names.mp ?_).1
      rw [names_tidy, hnames]
      exact List.mem_append_right _ (List.mem_singleton_self _)
    · rw [String.toList_append]
      exact List.mem_append_right _ h

end

end PathText

/-! ## On a disk -/

namespace Disk

open PathText

section

variable {d : Disk} {p q : Path} {s suffix path content : String}

theorem follow_append (p : Path) (parts more : List String) :
    d.follow p (parts ++ more) = (d.follow p parts).bind (d.follow · more) := by
  induction parts generalizing p with
  | nil => rfl
  | cons part rest ih =>
    rw [List.cons_append, follow, follow]
    cases d.node p with
    | missing => rfl
    | file _ => rfl
    | folder =>
      dsimp only
      split
      · exact ih p
      · split
        · exact ih _
        · split
          · rfl
          · exact ih _

/-- Where a single part leads from a folder: up, or on to a name in it. -/
theorem follow_part {part : String} (hnamed : saysNothing part = false) (h : d.follow p [part] = .ok q) :
    q = if part = ".." then p.dropLast else p ++ [part] := by
  rw [follow, node_of_follow (List.cons_ne_nil _ _) h] at h
  dsimp only at h
  rw [if_neg (by simp [hnamed])] at h
  split at h
  · cases h
    rw [if_pos ‹_›]
  · split at h
    · cases h
    · cases h
      rw [if_neg ‹_›]

theorem follow_names (h : d.resolve s = .ok p) :
    d.follow (if s.toList.head? = some '/' then [] else d.here) (names s) = .ok p :=
  follow_filter (resolve_eq_ok.mp h).2.2.2

theorem null_not_mem_of_resolve (h : d.resolve s = .ok p) : '\x00' ∉ s.toList := (resolve_eq_ok.mp h).1

/-- The path of a file has a name, since it starts in a folder. -/
theorem names_ne_nil (hp : d.resolve s = .ok p) (hfile : d.node p = .file content) : names s ≠ [] := by
  intro hnil
  have hfollow := follow_names hp
  rw [hnil] at hfollow
  have hstart := node_of_follow (parts_ne_nil s) (resolve_eq_ok.mp hp).2.2.2
  rw [Except.ok.inj hfollow, hfile] at hstart
  cases hstart

/-- A file, and the path with a dotted suffix in place of its own: they are the same where the suffix is. -/
theorem resolve_withSuffix (hp : d.resolve s = .ok p) (hfile : d.node p = .file content) (hdotted : IsDotted suffix)
    (hpath : withSuffix? s suffix = some path) (hq : d.resolve (tidy path) = .ok q) :
    q = p ↔ suffix = PathText.suffix s := by
  have hs := names_ne_nil hp hfile
  obtain ⟨hnames, hhead⟩ := names_withSuffix hs hdotted hpath
  obtain ⟨hdot, -⟩ := (isSuffix_of_dotted hdotted).mp (withSuffix?_eq_some.mp hpath).1
  have hlast := fileName_mem hs
  obtain ⟨hnamed, hup⟩ := leads_on (stem_ne_empty (ne_empty_of_mem_names hlast)) hdotted hdot
  -- both are followed through the same folders, up to the last name
  have hgiven := follow_names hp
  have hother := follow_names hq
  rw [names_eq_concat hs, follow_append] at hgiven
  rw [names_tidy, if_congr ((head?_tidy path).trans hhead) rfl rfl, hnames, follow_append] at hother
  obtain ⟨folder, hfolder, hgiven⟩ := bind_eq_ok.mp hgiven
  obtain ⟨folder', hfolder', hother⟩ := bind_eq_ok.mp hother
  obtain rfl := Except.ok.inj (hfolder.symm.trans hfolder')
  have hp := follow_part (mem_names.mp hlast).2 hgiven
  have hq := follow_part hnamed hother
  rw [if_neg hup] at hq
  rw [hp, hq]
  split
  · rename_i hparent
    have hlength : folder ++ [stem s ++ suffix] ≠ folder.dropLast := by
      intro h
      have := congrArg List.length h
      simp only [List.length_append, List.length_singleton, List.length_dropLast] at this
      omega
    have hbare : PathText.suffix s = "" := by
      rw [PathText.suffix, hparent]
      decide
    rw [hbare]
    exact iff_of_false hlength hdotted.ne_empty
  · rw [List.append_cancel_left_eq, List.cons_eq_cons, and_iff_left rfl, ← stem_append_suffix s]
    exact String.append_right_inj _

end

end Disk

end GraphScript
