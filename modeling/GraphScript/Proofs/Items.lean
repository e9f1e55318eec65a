/-
  GraphScript.Proofs.Items — what a translated item is made of.

  An item that is translated is an object of one of the six kinds. It begins with its id, and it is
  a folder, one without children, exactly when its type says so.
-/
import GraphScript.Proofs.State.Fields
import GraphScript.State.Item

namespace GraphScript

open Faults

/-- The value of a key; null where there is none. -/
def Json.valueOf (j : Json) (key : String) : Json :=
  match j with
  | .obj fs => Json.Fields.get fs key
  | _ => .null

theorem Item.ofJson_eq_ok {j : Json} {t : Item Affix} (h : Item.ofJson j = .ok t) :
    ∃ (fs : Json.Fields) (id : Json) (styling : List OptionGroup) (kind : ItemKind) (affix : Affix)
      (groups : List OptionGroup), j = .obj fs ∧ fs.styling = .ok styling ∧
      ItemKind.ofJson? (fs.get "type") = some kind ∧ kind.affix fs = .ok affix ∧ kind.groups fs = .ok groups ∧
      t = { affix
            smallFlags := smallFlagIf (fs.truthy "secret") .secret ++ smallFlagIf (fs.truthy "hidden") .hidden
              ++ kind.smallFlags fs
            options := .id (Json.text id) :: styling ++ groups } := by
  simp only [Item.ofJson, bind_eq_ok, Json.fields_eq_ok] at h
  obtain ⟨fs, rfl, id, -, styling, hs, h⟩ := h
  split at h
  · cases h
  · rename_i kind hk
    simp only [bind_eq_ok, pure_eq, Except.ok.injEq] at h
    obtain ⟨affix, ha, groups, hg, rfl⟩ := h
    exact ⟨fs, id, styling, kind, affix, groups, rfl, hs, hk, ha, hg, rfl⟩

theorem Item.ofJson_id {j : Json} {t : Item Affix} (h : Item.ofJson j = .ok t) :
    ∃ id groups, j.need "id" = .ok id ∧ t.options = .id id.text :: groups := by
  simp only [Item.ofJson, bind_eq_ok] at h
  obtain ⟨fs, -, id, hid, styling, -, h⟩ := h
  split at h
  · cases h
  · simp only [bind_eq_ok, pure_eq, Except.ok.injEq] at h
    obtain ⟨affix, -, groups, -, rfl⟩ := h
    exact ⟨id, styling ++ groups, hid, rfl⟩

/-! ## Kinds -/

theorem ItemKind.ofJson?_folder (v : Json) : ItemKind.ofJson? v = some .folder ↔ v.is "folder" = true := by
  cases v with
  | str s =>
    simp only [ItemKind.ofJson?, ItemKind.names, Json.is, List.lookup_cons, List.lookup_nil, beq_iff_eq]
    by_cases hs : s = "folder"
    · simp [hs]
    · simp only [beq_eq_false_iff_ne.mpr hs, hs, iff_false]
      repeat' split
      all_goals simp
  | _ => simp [ItemKind.ofJson?, Json.is]

theorem ItemKind.affix_folder (fs : Json.Fields) : ItemKind.affix fs .folder = .ok (.folder ⟨fs.get "title", []⟩) := rfl

theorem ItemKind.affix_leaf {fs : Json.Fields} {kind : ItemKind} {a : Affix} (hk : kind ≠ .folder)
    (h : kind.affix fs = .ok a) : ∃ l, a = .leaf l := by
  cases kind with
  | folder => exact absurd rfl hk
  | table | simulation | expression =>
    simp only [ItemKind.affix, bind_eq_ok, pure_eq, Except.ok.injEq] at h
    grind
  | image | text => exact ⟨_, (Except.ok.inj h).symm⟩

/-- The columns of a table are translated columns. -/
theorem ItemKind.affix_columns {fs : Json.Fields} {kind : ItemKind} {columns : List Column}
    (h : kind.affix fs = .ok (.leaf (.table columns))) : ∀ c ∈ columns, ∃ j, Column.ofJson j = .ok c := by
  cases kind with
  | table =>
    simp only [affix, bind_eq_ok, pure_eq, Except.ok.injEq, Affix.leaf.injEq, Leaf.table.injEq] at h
    obtain ⟨members, -, columns, hc, rfl⟩ := h
    intro c hcm
    obtain ⟨j, -, hj⟩ := mem_of_mapM hc c hcm
    exact ⟨j, hj⟩
  | simulation | expression =>
    simp only [affix, bind_eq_ok, pure_eq, Except.ok.injEq] at h
    grind
  | folder | image | text => cases h

/-- A folder is translated without children, and nothing else is translated into a folder. -/
theorem Item.ofJson_affix {j : Json} {t : Item Affix} (h : Item.ofJson j = .ok t) :
    if (j.valueOf "type").is "folder" then ∃ f, t.affix = .folder f ∧ f.children = [] else ∃ l, t.affix = .leaf l := by
  obtain ⟨fs, id, styling, kind, affix, groups, rfl, -, hk, ha, -, rfl⟩ := Item.ofJson_eq_ok h
  split
  · rename_i hf
    rw [Json.valueOf, ← ItemKind.ofJson?_folder, hk, Option.some.injEq] at hf
    subst hf
    rw [ItemKind.affix_folder] at ha
    cases ha
    exact ⟨_, rfl, rfl⟩
  · rename_i hf
    refine ItemKind.affix_leaf (fun e => hf ?_) ha
    rw [Json.valueOf, ← ItemKind.ofJson?_folder, hk, e]

end GraphScript
