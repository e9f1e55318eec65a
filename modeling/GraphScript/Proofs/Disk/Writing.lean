/-
  GraphScript.Proofs.Disk.Writing — what writing a file changes.

  A disk is seen through what stands at each path (`node`). Writing puts a file at one path, and
  folders where the path has parts that are missing. A path that was found by following its text has
  no such part: what stands at every other path stays as it is.

  - `node_written`: what stands at each path after a file is written.
  - `node_of_write`: the same where the path is given as a text.
-/
import GraphScript.Disk.Basic
import GraphScript.Proofs.Faults
import Mathlib.Data.List.Infix

namespace GraphScript.Disk

open Faults

/-! ## Files -/

theorem lookup_put (files : List (Path × String)) (p q : Path) (content : String) :
    (put files p content).lookup q = if q = p then some content else files.lookup q := by
  induction files with
  | nil =>
    rw [put, List.lookup_cons, List.lookup_nil]
    by_cases hq : q = p
    · rw [beq_iff_eq.mpr hq, if_pos hq]
    · rw [beq_eq_false_iff_ne.mpr hq, if_neg hq]
  | cons file rest ih =>
    obtain ⟨f, old⟩ := file
    rw [put]
    by_cases hf : f = p
    · subst hf
      rw [if_pos rfl, List.lookup_cons, List.lookup_cons]
      by_cases hq : q = f
      · rw [beq_iff_eq.mpr hq, if_pos hq]
      · rw [beq_eq_false_iff_ne.mpr hq, if_neg hq]
    · rw [if_neg hf, List.lookup_cons, List.lookup_cons, ih]
      by_cases hq : q = f
      · subst hq
        simp [hf]
      · rw [beq_eq_false_iff_ne.mpr hq]

/-- The files that are there afterwards are the one that is written and those that there were. -/
theorem exists_mem_put {files : List (Path × String)} {p : Path} {content : String} {P : Path → Prop} :
    (∃ f ∈ put files p content, P f.1) ↔ P p ∨ ∃ f ∈ files, P f.1 := by
  induction files with
  | nil => simp [put]
  | cons file rest ih =>
    obtain ⟨f, old⟩ := file
    rw [put]
    by_cases hf : f = p
    · subst hf
      simp
    · rw [if_neg hf]
      simp only [List.exists_mem_cons_iff, ih]
      exact or_left_comm

/-! ## Folders -/

section

variable {d d' : Disk} {p q : Path} {content : String}

theorem isFolder_iff : d.isFolder p = true ↔
    p <+: d.here ∨ (∃ f ∈ d.folders, p <+: f) ∨ ∃ f ∈ d.files, p ≠ f.1 ∧ p <+: f.1 := by
  simp [isFolder, or_assoc]

/-- Every folder lies in folders. -/
theorem isFolder_above (h : q <+: p) (hp : d.isFolder p = true) : d.isFolder q = true := by
  rw [isFolder_iff] at hp ⊢
  rcases hp with hp | ⟨f, hf, hp⟩ | ⟨f, hf, hne, hp⟩
  · exact .inl (h.trans hp)
  · exact .inr (.inl ⟨f, hf, h.trans hp⟩)
  · refine .inr (.inr ⟨f, hf, ?_, h.trans hp⟩)
    rintro rfl
    exact hne (hp.eq_of_length_le h.length_le)

theorem node_of_some (h : d.files.lookup p = some content) : d.node p = .file content := by
  rw [node, h]

theorem node_of_none (h : d.files.lookup p = none) : d.node p = if d.isFolder p then .folder else .missing := by
  rw [node, h]

theorem isFolder_of_node (h : d.node p = .folder) : d.isFolder p = true := by
  unfold node at h
  split at h
  · cases h
  · split at h
    · assumption
    · cases h

theorem not_isFolder_of_node (h : d.node p = .missing) : d.isFolder p = false := by
  unfold node at h
  split at h
  · cases h
  · split at h
    · cases h
    · rename_i hf
      exact Bool.eq_false_iff.mpr hf

/-- A part of a path that lies before its last name. -/
theorem prefix_dropLast (h : q <+: p) (hne : q ≠ p) : q <+: p.dropLast := by
  obtain ⟨rest, rfl⟩ := h
  have hrest : rest ≠ [] := by
    rintro rfl
    exact hne (List.append_nil q).symm
  rw [List.dropLast_append_of_ne_nil hrest]
  exact List.prefix_append _ _

/-! ## Writing -/

theorem writePath_eq_ok : d.writePath p content = .ok d' ↔
    d.node p ≠ .folder ∧ d' = { d with files := put d.files p content } := by
  unfold writePath
  by_cases hp : d.node p = .folder
  · simp [hp]
  · simp [hp, eq_comm]

/-- The file stands at its path, and each part of the path that was missing is a folder now. -/
theorem node_written (d : Disk) (p q : Path) (content : String) :
    node { d with files := put d.files p content } q =
      if q = p then .file content else if d.node q = .missing ∧ q <+: p then .folder else d.node q := by
  have hfolder : isFolder { d with files := put d.files p content } q = true ↔
      d.isFolder q = true ∨ q ≠ p ∧ q <+: p := by
    simp only [isFolder_iff, exists_mem_put (P := fun f => q ≠ f ∧ q <+: f), or_assoc, or_comm (a := q ≠ p ∧ q <+: p)]
  have hlookup := lookup_put d.files p q content
  by_cases hq : q = p
  · rw [if_pos hq] at hlookup ⊢
    exact node_of_some hlookup
  · rw [if_neg hq] at hlookup ⊢
    cases hf : d.files.lookup q with
    | some old =>
      rw [hf] at hlookup
      rw [node_of_some hlookup, node_of_some hf, if_neg fun h => nomatch h.1]
    | none =>
      rw [hf] at hlookup
      rw [node_of_none hlookup, node_of_none hf]
      by_cases hd : d.isFolder q = true
      · rw [if_pos (hfolder.mpr (.inl hd)), if_pos hd, if_neg fun h => nomatch h.1]
      · by_cases hp : q <+: p
        · rw [if_pos (hfolder.mpr (.inr ⟨hq, hp⟩)), if_neg hd, if_pos ⟨rfl, hp⟩]
        · have hno : ¬ isFolder { d with files := put d.files p content } q = true := fun h =>
            (hfolder.mp h).elim hd fun h => hp h.2
          rw [if_neg hno, if_neg hd, if_neg fun h => hp h.2]

/-! ## Paths given as texts -/

/-- What is arrived at by following a path lies in a folder. -/
theorem isFolder_of_follow {parts : List String} (hp : d.isFolder p.dropLast = true) (h : d.follow p parts = .ok q) :
    d.isFolder q.dropLast = true := by
  induction parts generalizing p with
  | nil =>
    cases h
    exact hp
  | cons part rest ih =>
    rw [follow] at h
    split at h
    · cases h
    · cases h
    · rename_i hnode
      have hfolder := isFolder_of_node hnode
      split at h
      · exact ih hp h
      · split at h
        · exact ih (isFolder_above ((List.dropLast_prefix _).trans (List.dropLast_prefix _)) hfolder) h
        · split at h
          · cases h
          · refine ih ?_ h
            rwa [List.dropLast_concat]

theorem isFolder_of_resolve {s : String} (h : d.resolve s = .ok p) : d.isFolder p.dropLast = true := by
  unfold resolve at h
  split at h
  · cases h
  · split at h
    · cases h
    · split at h
      · cases h
      · refine isFolder_of_follow ?_ h
        have hhere : d.isFolder d.here = true := isFolder_iff.mpr (.inl (List.prefix_refl _))
        split
        · exact isFolder_above List.nil_prefix hhere
        · exact isFolder_above (List.dropLast_prefix _) hhere

/-- Writing a file changes nothing but the file. -/
theorem node_of_write {s : String} (h : d.write s content = .ok d') :
    ∃ p, d.resolve (PathText.tidy s) = .ok p ∧ d'.here = d.here ∧ d'.node p = .file content ∧
      ∀ q, q ≠ p → d'.node q = d.node q := by
  obtain ⟨p, hp, h⟩ := bind_eq_ok.mp h
  obtain ⟨-, rfl⟩ := writePath_eq_ok.mp h
  refine ⟨p, hp, rfl, by rw [node_written, if_pos rfl], fun q hq => ?_⟩
  rw [node_written, if_neg hq, if_neg]
  rintro ⟨hmissing, hprefix⟩
  have hfolder := isFolder_above (prefix_dropLast hprefix hq) (isFolder_of_resolve hp)
  rw [not_isFolder_of_node hmissing] at hfolder
  cases hfolder

end

end GraphScript.Disk
