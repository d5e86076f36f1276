import Stepwise.Pdf.Folder
import Stepwise.Proofs.Files.Path

/-!
# Components of a path

Read lexically, a path is a list of components: it may start at the root or with the current folder,
and then goes up or into what has a name. A path that is joined to a base and does not start at the
root has the components of the base in front of its own. So the names that a folder of forms
resolves lead to paths that go on from the folder by names only.
-/

namespace Stepwise

namespace Path

/-- A component of a path. -/
inductive Component where
  | root
  | current
  | up
  | normal (name : String)
  deriving DecidableEq

/-- The component of a part that names something. -/
def Component.ofName (name : String) : Component :=
  if name = ".." then .up else .normal name

/-- What a path starts with in front of its names: the root, or the current folder if the first
part is `.`. -/
def lead (path : String) : List Component :=
  if isAbsolute path then [.root]
  else if (parts path).head? = some "." then [.current]
  else []

/-- The components of a path. Empty parts are none, and neither are the parts `.` behind the
first one. -/
def components (path : String) : List Component :=
  lead path ++ (names path).map .ofName

/-- A path leads from a folder only by names. -/
def Inside (folder path : String) : Prop :=
  ∃ below : List String, components path = components folder ++ below.map .normal

/-! ## Joined paths -/

theorem parts_append_slash (front behind : List Char) :
    parts (String.ofList (front ++ '/' :: behind)) =
      parts (String.ofList front) ++ parts (String.ofList behind) := by
  simp only [parts, String.toList_ofList, Text.pieces_append, List.filter_append, List.map_append]

theorem parts_join {base path : String} (hbase : base ≠ "") (hpath : isAbsolute path = false) :
    parts (join base path) = parts base ++ parts path := by
  have hne : (base == "") = false := beq_false_of_ne hbase
  rw [join, hpath, hne, Bool.false_or, if_neg Bool.false_ne_true]
  by_cases hslash : endsWithSlash base = true
  · obtain ⟨front, hfront⟩ := List.getLast?_eq_some_iff.mp (beq_iff_eq.mp hslash)
    have hpieces : parts base = parts (String.ofList front) := by
      have hnone : parts (String.ofList []) = [] := by simp [parts, Text.pieces]
      have happend := parts_append_slash front []
      rwa [← hfront, String.ofList_toList, hnone, List.append_nil] at happend
    have hjoined : base ++ path = String.ofList (front ++ '/' :: path.toList) := by
      apply String.toList_inj.mp
      rw [String.toList_append, String.toList_ofList, hfront, List.append_assoc]
      rfl
    rw [if_pos hslash, hjoined, parts_append_slash, String.ofList_toList, hpieces]
  · have hjoined : base ++ "/" ++ path = String.ofList (base.toList ++ '/' :: path.toList) := by
      apply String.toList_inj.mp
      rw [String.toList_append, String.toList_append, List.append_assoc]
      simp only [String.toList_ofList]
      rfl
    rw [if_neg hslash, hjoined, parts_append_slash, String.ofList_toList, String.ofList_toList]

theorem isAbsolute_join {base path : String} (hbase : base ≠ "")
    (hpath : isAbsolute path = false) : isAbsolute (join base path) = isAbsolute base := by
  have hne : (base == "") = false := beq_false_of_ne hbase
  rw [join, hpath, hne, Bool.false_or, if_neg Bool.false_ne_true]
  obtain ⟨c, rest, hchars⟩ : ∃ c rest, base.toList = c :: rest := by
    cases hchars : base.toList with
    | nil => exact absurd (String.toList_eq_nil_iff.mp hchars) hbase
    | cons c rest => exact ⟨c, rest, rfl⟩
  by_cases hslash : endsWithSlash base = true
  · rw [if_pos hslash, isAbsolute, isAbsolute, String.toList_append, hchars]
    rfl
  · rw [if_neg hslash, isAbsolute, isAbsolute, String.toList_append, String.toList_append, hchars]
    rfl

/-- A path without any part is empty or starts at the root. -/
theorem isAbsolute_of_parts_eq_nil {path : String} (hne : path ≠ "") (hparts : parts path = []) :
    isAbsolute path = true := by
  cases hchars : path.toList with
  | nil => exact absurd (String.toList_eq_nil_iff.mp hchars) hne
  | cons c rest =>
      by_cases hc : c = '/'
      · rw [isAbsolute, hchars, hc]
        rfl
      · -- the first piece holds the first character
        exfalso
        rw [parts, hchars, Text.pieces, beq_false_of_ne hc] at hparts
        cases hrest : Text.pieces '/' rest with
        | nil => exact Text.pieces_ne_nil '/' rest hrest
        | cons piece found =>
            rw [hrest] at hparts
            simp at hparts

theorem lead_join {base path : String} (hbase : base ≠ "") (hpath : isAbsolute path = false) :
    lead (join base path) = lead base := by
  rw [lead, lead, isAbsolute_join hbase hpath, parts_join hbase hpath]
  by_cases habsolute : isAbsolute base = true
  · rw [if_pos habsolute, if_pos habsolute]
  · cases hparts : parts base with
    | nil => exact absurd (isAbsolute_of_parts_eq_nil hbase hparts) habsolute
    | cons part rest => rfl

theorem ofName_ne_current (name : String) : Component.ofName name ≠ .current := by
  unfold Component.ofName
  split <;> nofun

/-- Without the current folder, the components of a path that does not start at the root are those
of its names. -/
theorem components_filter {path : String} (hpath : isAbsolute path = false) :
    (components path).filter (· ≠ .current) = (names path).map .ofName := by
  have hlead : (lead path).filter (· ≠ .current) = [] := by
    rw [lead, hpath, if_neg Bool.false_ne_true]
    split <;> rfl
  rw [components, List.filter_append, hlead, List.nil_append, List.filter_eq_self]
  intro component hmem
  obtain ⟨name, -, rfl⟩ := List.mem_map.mp hmem
  exact decide_eq_true (ofName_ne_current name)

/-- A path that is taken from a base has the components of the base, and then its own. -/
theorem components_join {base path : String} (hbase : base ≠ "")
    (hpath : isAbsolute path = false) :
    components (join base path) =
      components base ++ (components path).filter (· ≠ .current) := by
  rw [components_filter hpath, components, components, lead_join hbase hpath, names,
    parts_join hbase hpath, List.filter_append, List.map_append, List.append_assoc]
  rfl

theorem up_mem_components_iff (path : String) : .up ∈ components path ↔ ".." ∈ parts path := by
  have hlead : .up ∉ lead path := by
    unfold lead
    split
    · simp
    · split <;> simp
  rw [components, List.mem_append, or_iff_right hlead, List.mem_map, names]
  constructor
  · rintro ⟨name, hname, hup⟩
    by_cases heq : name = ".."
    · rw [← heq]
      exact (List.mem_filter.mp hname).1
    · rw [Component.ofName, if_neg heq] at hup
      cases hup
  · intro hmem
    exact ⟨"..", List.mem_filter.mpr ⟨hmem, rfl⟩, if_pos rfl⟩

end Path

namespace Pdf.Folder

open Stepwise.Path (Component components Inside)

theorem isBlankText_eq_false_iff (name : String) :
    Text.isBlankText name = false ↔ ∃ c ∈ name.toList, Text.isBlank c = false := by
  simp [Text.isBlankText]

/-- A name is resolved if it is not blank, does not start at the root and goes up nowhere; its path
is then taken from the folder. -/
theorem resolve?_eq_some_iff (folder name path : String) :
    resolve? folder name = some path ↔
      ((∃ c ∈ name.toList, Text.isBlank c = false) ∧ name.toList.head? ≠ some '/' ∧
        Component.up ∉ components name) ∧ Path.join folder name = path := by
  rw [← isBlankText_eq_false_iff, Path.up_mem_components_iff, resolve?, Path.staysInside,
    Path.isAbsolute]
  by_cases hname : Text.isBlankText name = false ∧ name.toList.head? ≠ some '/' ∧
      ".." ∉ Path.parts name
  · obtain ⟨hblank, hroot, hup⟩ := hname
    simp [hblank, hroot, hup]
  · have hrefused : ¬(!(name.toList.head? == some '/') && !(Path.parts name).contains ".." &&
        !Text.isBlankText name) = true := by
      simpa [and_comm, and_assoc] using hname
    rw [if_neg hrefused]
    exact iff_of_false (Option.some_ne_none path).symm fun h => hname h.1

/-- The path of a name goes on from the folder by the components of the name, and these are
names. -/
theorem components_of_resolve? {folder name path : String} (hfolder : folder ≠ "")
    (hpath : resolve? folder name = some path) :
    components path = components folder ++ (components name).filter (· ≠ .current) ∧
      Inside folder path := by
  obtain ⟨⟨-, hroot, hup⟩, rfl⟩ := (resolve?_eq_some_iff folder name path).mp hpath
  have hrelative : Path.isAbsolute name = false := beq_false_of_ne hroot
  have hjoin := Path.components_join hfolder hrelative
  refine ⟨hjoin, Path.names name, ?_⟩
  rw [hjoin, Path.components_filter hrelative]
  refine congrArg _ (List.map_congr_left fun part hpart => if_neg ?_)
  rintro rfl
  exact hup ((Path.up_mem_components_iff name).mpr (List.mem_filter.mp hpart).1)

end Pdf.Folder

end Stepwise
