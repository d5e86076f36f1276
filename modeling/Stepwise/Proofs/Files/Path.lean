import Mathlib.Data.List.TakeWhile
import Stepwise.Store.RecordFile

/-!
# The draft beside a file

New content is first written to a draft, whose name is that of the file with another extension. The
path of the draft has the parts of the path of the file, except for the last one, and this is never
the name of the file itself.
-/

namespace Stepwise

namespace Text

theorem pieces_ne_nil (separator : Char) (cs : List Char) : pieces separator cs ≠ [] := by
  cases cs with
  | nil => simp [pieces]
  | cons c rest =>
      rw [pieces]
      split <;> simp

/-- The pieces on the two sides of a separator. -/
theorem pieces_append (separator : Char) (front behind : List Char) :
    pieces separator (front ++ separator :: behind) =
      pieces separator front ++ pieces separator behind := by
  induction front with
  | nil => simp [pieces]
  | cons c rest ih =>
      rw [List.cons_append, pieces, pieces, ih]
      cases c == separator with
      | true => rfl
      | false =>
          cases hrest : pieces separator rest with
          | nil => exact absurd hrest (pieces_ne_nil separator rest)
          | cons piece found => rfl

theorem pieces_of_not_mem {separator : Char} {cs : List Char} (h : separator ∉ cs) :
    pieces separator cs = [cs] := by
  induction cs with
  | nil => rfl
  | cons c rest ih =>
      rw [List.mem_cons, not_or] at h
      rw [pieces, ih h.2, beq_false_of_ne (Ne.symm h.1)]

end Text

namespace Path

/-! ## The last part -/

/-- What stands in front of the last part of a path: nothing, or something up to a slash. -/
def IsFront (front : List Char) : Prop := front = [] ∨ ∃ rest, front = rest ++ ['/']

/-- A path is cut behind its last slash. -/
theorem exists_front (cs : List Char) :
    ∃ front last, cs = front ++ last ∧ IsFront front ∧ '/' ∉ last ∧
      (cs.reverse.takeWhile (· != '/')).length = last.length := by
  refine ⟨(cs.reverse.dropWhile (· != '/')).reverse, (cs.reverse.takeWhile (· != '/')).reverse,
    ?_, ?_, ?_, ?_⟩
  · rw [← List.reverse_append, List.takeWhile_append_dropWhile, List.reverse_reverse]
  · cases hback : cs.reverse.dropWhile (· != '/') with
    | nil => exact Or.inl rfl
    | cons c rest =>
        have hhead := List.head?_dropWhile_not (· != '/') cs.reverse
        rw [hback] at hhead
        have hc : c = '/' := by simpa using hhead
        exact Or.inr ⟨rest.reverse, by simp [hc]⟩
  · intro hmem
    have hkept := List.mem_takeWhile_imp (List.mem_reverse.mp hmem)
    simp at hkept
  · simp

theorem parts_append {front last : List Char} (hfront : IsFront front) (hlast : '/' ∉ last) :
    parts (String.ofList (front ++ last)) =
      parts (String.ofList front) ++ if last = [] then [] else [String.ofList last] := by
  rcases hfront with rfl | ⟨rest, rfl⟩
  · cases last with
    | nil => simp [parts, Text.pieces]
    | cons c last => simp [parts, Text.pieces_of_not_mem hlast, Text.pieces]
  · have hnone : Text.pieces '/' [] = [[]] := rfl
    cases last with
    | nil => simp
    | cons c last =>
        simp [parts, Text.pieces_append, Text.pieces_of_not_mem hlast, hnone]

theorem fileName?_of_parts {path : String} {front : List String} {last : String}
    (hparts : parts path = front ++ [last]) (hdot : last ≠ ".") (hup : last ≠ "..") :
    fileName? path = some last := by
  have hnames : (names path).getLast? = some last := by
    simp [names, hparts, List.filter_append, hdot]
  rw [fileName?, hnames]
  simp [hup]

/-! ## Extensions -/

/-- A name has no extension, or it is its stem, a point, and an extension without a point. -/
theorem cutExtension_cases (name : String) :
    cutExtension name = (name, none) ∨
      ∃ stem extension, cutExtension name = (stem, some extension) ∧
        name.toList = stem.toList ++ '.' :: extension.toList ∧ '.' ∉ extension.toList := by
  have hsplit : name.toList.reverse.takeWhile (· != '.') ++
      name.toList.reverse.dropWhile (· != '.') = name.toList.reverse :=
    List.takeWhile_append_dropWhile
  have hdrop : name.toList.reverse.drop (name.toList.reverse.takeWhile (· != '.')).length =
      name.toList.reverse.dropWhile (· != '.') := by
    have hleft := @List.drop_left _ (name.toList.reverse.takeWhile (· != '.'))
      (name.toList.reverse.dropWhile (· != '.'))
    rwa [hsplit] at hleft
  have hpoint : '.' ∉ (name.toList.reverse.takeWhile (· != '.')).reverse := by
    intro hmem
    have hkept := List.mem_takeWhile_imp (List.mem_reverse.mp hmem)
    simp at hkept
  have hhead := List.head?_dropWhile_not (· != '.') name.toList.reverse
  simp only [cutExtension, hdrop]
  cases hback : name.toList.reverse.dropWhile (· != '.') with
  | nil => exact Or.inl rfl
  | cons c stem =>
      rw [hback] at hhead hsplit
      obtain rfl : c = '.' := by simpa using hhead
      by_cases hstem : stem.isEmpty = true
      · exact Or.inl (if_pos hstem)
      · refine Or.inr ⟨_, _, if_neg hstem, ?_, ?_⟩
        · have hname := congrArg List.reverse hsplit
          simpa using hname.symm
        · simpa using hpoint

/-! ## The name of a draft -/

/-- The name of the draft of a file with a name. -/
def draftName (name : String) : String :=
  (cutExtension name).1 ++ "." ++ "json.tmp"

theorem toList_draftName (name : String) :
    (draftName name).toList = (cutExtension name).1.toList ++ ".json.tmp".toList := by
  simp [draftName]

/-- A draft never has the name of its file. -/
theorem draftName_ne (name : String) : draftName name ≠ name := by
  intro heq
  have htext := congrArg String.toList heq
  rw [toList_draftName] at htext
  rcases cutExtension_cases name with hnone | ⟨stem, extension, hcut, hname, hpoint⟩
  · have hlength := congrArg List.length htext
    rw [hnone, List.length_append] at hlength
    simp at hlength
  · -- the extension would hold the point of the one that is put in its place
    rw [hcut, hname] at htext
    have hextension := List.append_cancel_left htext
    have hmem : '.' ∈ extension.toList := by
      have htail := (List.cons.inj hextension).2
      rw [← htail]
      decide
    exact hpoint hmem

theorem slash_not_mem_draftName {name : String} (h : '/' ∉ name.toList) :
    '/' ∉ (draftName name).toList := by
  have hstem : '/' ∉ (cutExtension name).1.toList := by
    rcases cutExtension_cases name with hnone | ⟨stem, extension, hcut, hname, -⟩
    · rwa [hnone]
    · rw [hcut]
      rw [hname, List.mem_append, not_or] at h
      exact h.1
  have hsuffix : '/' ∉ ".json.tmp".toList := by decide
  rw [toList_draftName, List.mem_append, not_or]
  exact ⟨hstem, hsuffix⟩

theorem length_draftName (name : String) : 9 ≤ (draftName name).toList.length := by
  rw [toList_draftName, List.length_append]
  have hsuffix : ".json.tmp".toList.length = 9 := by decide
  omega

/-- The draft of a file stands beside it. -/
theorem parts_draftPath {path last : String} {front : List String}
    (hparts : parts path = front ++ [last]) (hslash : endsWithSlash path = false)
    (hdot : last ≠ ".") (hup : last ≠ "..") :
    parts (RecordFile.draftPath path) = front ++ [draftName last] ∧
      isAbsolute (RecordFile.draftPath path) = isAbsolute path := by
  obtain ⟨before, name, hpath, hfront, hname, hlength⟩ := exists_front path.toList
  have hpath' : path = String.ofList (before ++ name) := by rw [← hpath, String.ofList_toList]
  have hne : name ≠ [] := by
    rintro rfl
    rw [List.append_nil] at hpath hpath'
    rcases hfront with rfl | ⟨rest, rfl⟩
    · rw [hpath'] at hparts
      simp [parts, Text.pieces] at hparts
    · rw [endsWithSlash, hpath] at hslash
      simp at hslash
  have hsplit : front = parts (String.ofList before) ∧ last = String.ofList name := by
    have happend := parts_append hfront hname
    rw [if_neg hne, ← hpath', hparts] at happend
    exact ⟨List.append_inj_left' happend rfl, by simpa using List.append_inj_right' happend rfl⟩
  obtain ⟨rfl, rfl⟩ := hsplit
  have hdraft : RecordFile.draftPath path =
      String.ofList (before ++ (draftName (String.ofList name)).toList) := by
    have htake : path.toList.take (path.toList.length - name.length) = before := by
      rw [hpath]
      simp
    rw [RecordFile.draftPath, withExtension, fileName?_of_parts hparts hdot hup]
    simp only [withFileName, hlength, htake]
    rw [String.ofList_append, String.ofList_toList, draftName]
  have hslashless : '/' ∉ (draftName (String.ofList name)).toList :=
    slash_not_mem_draftName (by simpa using hname)
  have hdraftne : (draftName (String.ofList name)).toList ≠ [] := by
    intro hnil
    have hlong := length_draftName (String.ofList name)
    rw [hnil] at hlong
    simp at hlong
  constructor
  · rw [hdraft, parts_append hfront hslashless, if_neg hdraftne, String.ofList_toList]
  · have hhead : ∀ cs : List Char, '/' ∉ cs → (cs.head? == some '/') = false := by
      intro cs hcs
      cases cs with
      | nil => rfl
      | cons c rest =>
          have hc : c ≠ '/' := fun hc => hcs (hc ▸ List.mem_cons_self)
          simp [hc]
    rw [isAbsolute, isAbsolute, hdraft, hpath, String.toList_ofList]
    rcases hfront with rfl | ⟨rest, rfl⟩
    · rw [List.nil_append, List.nil_append, hhead _ hslashless, hhead _ hname]
    · cases rest <;> simp

end Path

end Stepwise
