import Mips32.Path
import Mips32.Proofs.Numeral
import Mips32.Proofs.Parts

/-! # Which paths promise a binary

    A path is a folder, a name and what trails behind it; or it leads nowhere and
    is made of separators and single dots alone: `nowhere_or_ends`.  Cutting it into
    components forgets the trail and keeps the name LAST, so neither the folder nor
    the trail has a say in the warning.

    Main statement: `Path.checkExtension_of_shape`. -/

namespace Mips32.Path

/-- What may stand in front of a name: nothing, or something up to a separator. -/
def IsFolder (cs : List Char) : Prop := cs = [] ∨ cs.getLast? = some '/'

/-- What may trail behind a name: separators, and single dots behind one. -/
inductive Trailing : List Char → Prop
  | nil : Trailing []
  | slash {cs : List Char} : Trailing cs → Trailing ('/' :: cs)
  | dot {cs : List Char} : Trailing cs → Trailing ('/' :: '.' :: cs)

/-- A part that leads somewhere. -/
structure IsName (part : List Char) : Prop where
  ne_nil : part ≠ []
  ne_dot : part ≠ ['.']
  no_slash : '/' ∉ part

/-- Whether a path is a folder, this name and a trail. -/
def Ends (path part : List Char) : Prop :=
  ∃ folder trail, path = folder ++ part ++ trail ∧ IsFolder folder ∧ IsName part ∧ Trailing trail

/-- A path that promises a raw binary: a folder, a stem, the extension, a trail. -/
def Promises (path : List Char) : Prop :=
  ∃ folder stem trail, path = folder ++ stem ++ ['.', 'b', 'i', 'n'] ++ trail ∧
    IsFolder folder ∧ stem ≠ [] ∧ '/' ∉ stem ∧ Trailing trail

/-- What is wrong with any other path. -/
inductive Unpromising (path : List Char) : Prop
  /-- It has no component. -/
  | nowhere (h : Trailing ('/' :: path))
  /-- Its last component goes up. -/
  | up (h : Ends path ['.', '.'])
  | noDot {name : List Char} (h : Ends path name) (hdot : '.' ∉ name)
  | hidden {name : List Char} (h : Ends path ('.' :: name)) (hdot : '.' ∉ name)
  /-- The letters of an extension count as they stand. -/
  | other {stem behind : List Char} (h : Ends path (stem ++ '.' :: behind)) (hstem : stem ≠ [])
      (hdot : '.' ∉ behind) (hne : behind ≠ ['b', 'i', 'n'])

variable {folder part trail path stem behind cs rest : List Char}

/-! ## Components -/

/-- A separator keeps the components on both sides of it apart. -/
theorem components_append (cs rest : List Char) :
    components (cs ++ '/' :: rest) = components cs ++ components rest := by
  unfold components
  rw [← List.filter_append]
  congr 1
  induction cs using Parts.cutting '/' with
  | whole cs hcs => rw [Parts.split_append hcs, Parts.split_of_not_mem hcs, List.singleton_append]
  | cut cs front hcs ih =>
      rw [List.append_assoc, List.cons_append, Parts.split_append hcs, Parts.split_append hcs, ih,
        List.cons_append]

theorem components_of_name (h : IsName part) : components part = [part] := by
  rw [components, Parts.split_of_not_mem h.no_slash]
  simp [h.ne_nil, h.ne_dot]

/-- **A TRAIL IS FORGOTTEN.** -/
theorem Trailing.components_append (h : Trailing trail) (cs : List Char) :
    components (cs ++ trail) = components cs := by
  induction h generalizing cs with
  | nil => rw [List.append_nil]
  | @slash trail h ih =>
      have hrest : components trail = [] := ih []
      rw [Path.components_append, hrest, List.append_nil]
  | @dot trail h ih =>
      have hrest : components ('.' :: trail) = [] := ih ['.']
      rw [Path.components_append, hrest, List.append_nil]

theorem IsFolder.components_append (h : IsFolder folder) (cs : List Char) :
    components (folder ++ cs) = components folder ++ components cs := by
  rcases h with rfl | hlast
  · rfl
  · obtain ⟨front, rfl⟩ := List.getLast?_eq_some_iff.mp hlast
    rw [List.append_assoc, List.singleton_append, Path.components_append, Path.components_append]
    exact congrArg (· ++ _) (List.append_nil _).symm

/-- **THE NAME IS THE LAST COMPONENT**, whatever stands around it. -/
theorem Ends.fileName (h : Ends path part) :
    fileName path = if part = ['.', '.'] then none else some part := by
  obtain ⟨folder, trail, rfl, hfolder, hpart, htrail⟩ := h
  rw [Path.fileName, htrail.components_append, hfolder.components_append,
    components_of_name hpart, List.getLast?_concat]

theorem components_of_nowhere (h : Trailing ('/' :: path)) : components path = [] := by
  have hcut : components ([] ++ '/' :: path) = components path := by
    rw [components_append]
    rfl
  rw [← hcut, h.components_append]
  rfl

/-! ## A path is one or the other -/

theorem Ends.of_folder (h : Ends path part) (front : List Char) :
    Ends (front ++ '/' :: path) part := by
  obtain ⟨folder, trail, rfl, hfolder, hpart, htrail⟩ := h
  refine ⟨front ++ '/' :: folder, trail, ?_, .inr ?_, hpart, htrail⟩
  · simp only [List.append_assoc, List.cons_append]
  · rcases hfolder with rfl | hlast
    · rw [List.getLast?_append]
      rfl
    · rw [List.getLast?_append, List.getLast?_cons, hlast]
      rfl

/-- A part without a separator is a name, or it may stand in a trail. -/
theorem isName_or_trailing (h : '/' ∉ cs) (htrail : Trailing trail) :
    IsName cs ∨ Trailing ('/' :: cs ++ trail) := by
  by_cases hnil : cs = []
  · subst hnil
    exact .inr (.slash htrail)
  · by_cases hdot : cs = ['.']
    · subst hdot
      exact .inr (.dot htrail)
    · exact .inl ⟨hnil, hdot, h⟩

/-- **A PATH LEADS NOWHERE OR ENDS IN A NAME.** -/
theorem nowhere_or_ends (path : List Char) :
    Trailing ('/' :: path) ∨ ∃ part, Ends path part := by
  induction path using Parts.cutting '/' with
  | whole cs hcs =>
      rcases isName_or_trailing hcs .nil with hname | htrail
      · exact .inr ⟨cs, [], [], by simp, .inl rfl, hname, .nil⟩
      · rw [List.append_nil] at htrail
        exact .inl htrail
  | cut cs rest hcs ih =>
      rcases ih with hrest | ⟨part, hends⟩
      · -- what is behind the separator is a trail, so the part in front of it decides
        rcases isName_or_trailing hcs hrest with hname | htrail
        · exact .inr ⟨cs, [], '/' :: rest, by simp, .inl rfl, hname, hrest⟩
        · exact .inl htrail
      · exact .inr ⟨part, hends.of_folder cs⟩

/-! ## Extensions -/

theorem extensionOf_of_not_mem (h : '.' ∉ cs) : extensionOf cs = none := by
  have htake : (cs.reverse ++ []).takeWhile (· ≠ '.') = cs.reverse :=
    takeWhile_reverse h (by simp)
  rw [List.append_nil] at htake
  rw [extensionOf, htake, List.reverse_reverse]
  simp

/-- What is behind the last dot is the extension, if something is before it. -/
theorem extensionOf_append (h : '.' ∉ behind) (stem : List Char) :
    extensionOf (stem ++ '.' :: behind) = if stem = [] then none else some behind := by
  have hcut : (stem ++ '.' :: behind).reverse = behind.reverse ++ '.' :: stem.reverse := by simp
  rw [extensionOf, hcut, takeWhile_reverse h (by simp), List.reverse_reverse]
  cases stem with
  | nil => simp
  | cons c stem =>
      have hlength : behind.length + 1 < (c :: stem ++ '.' :: behind).length := by
        rw [List.length_append, List.length_cons, List.length_cons]
        omega
      rw [if_neg (List.cons_ne_nil c stem)]
      exact if_pos hlength

/-- A text has no dot, or a last one. -/
theorem exists_last_dot (cs : List Char) :
    '.' ∉ cs ∨ ∃ stem behind, cs = stem ++ '.' :: behind ∧ '.' ∉ behind := by
  by_cases h : '.' ∈ cs.reverse
  · obtain ⟨behind, stem, hcs, hbehind⟩ := List.eq_append_cons_of_mem h
    refine .inr ⟨stem.reverse, behind.reverse, ?_, fun hmem => hbehind (List.mem_reverse.mp hmem)⟩
    rw [← List.reverse_reverse cs, hcs]
    simp
  · exact .inl fun hmem => h (List.mem_reverse.mpr hmem)

theorem Ends.extension {path : String} (h : Ends path.toList part) :
    extension path = if part = ['.', '.'] then none else extensionOf part := by
  rw [Path.extension, h.fileName]
  by_cases hup : part = ['.', '.']
  · rw [if_pos hup, if_pos hup]
    rfl
  · rw [if_neg hup, if_neg hup]
    rfl

/-! ## Promises -/

/-- A stem and an extension make a name. -/
theorem isName_append (hstem : stem ≠ []) (hslash : '/' ∉ stem) :
    IsName (stem ++ ['.', 'b', 'i', 'n']) where
  ne_nil := by simp
  ne_dot := by simp [List.append_eq_singleton_iff, hstem]
  no_slash := by simp [hslash]

theorem promises_iff_ends :
    Promises path ↔ ∃ stem, stem ≠ [] ∧ Ends path (stem ++ ['.', 'b', 'i', 'n']) := by
  constructor
  · rintro ⟨folder, stem, trail, hpath, hfolder, hstem, hslash, htrail⟩
    rw [List.append_assoc folder] at hpath
    exact ⟨stem, hstem, folder, trail, hpath, hfolder, isName_append hstem hslash, htrail⟩
  · rintro ⟨stem, hstem, folder, trail, hpath, hfolder, hname, htrail⟩
    rw [← List.append_assoc] at hpath
    exact ⟨folder, stem, trail, hpath, hfolder, hstem,
      fun hmem => hname.no_slash (List.mem_append_left _ hmem), htrail⟩

/-- **A PATH PROMISES A BINARY OR HAS A FAULT** that can be named. -/
theorem promises_or_unpromising (path : List Char) : Promises path ∨ Unpromising path := by
  rcases nowhere_or_ends path with hnowhere | ⟨part, hends⟩
  · exact .inr (.nowhere hnowhere)
  · rcases exists_last_dot part with hdot | ⟨stem, behind, rfl, hdot⟩
    · exact .inr (.noDot hends hdot)
    · by_cases hstem : stem = []
      · subst hstem
        exact .inr (.hidden hends hdot)
      · by_cases hbin : behind = ['b', 'i', 'n']
        · subst hbin
          exact .inl (promises_iff_ends.mpr ⟨stem, hstem, hends⟩)
        · exact .inr (.other hends hstem hdot hbin)

theorem extension_of_promises {path : String} (h : Promises path.toList) :
    extension path = some ['b', 'i', 'n'] := by
  obtain ⟨stem, hstem, hends⟩ := promises_iff_ends.mp h
  have hup : stem ++ ['.', 'b', 'i', 'n'] ≠ ['.', '.'] := by
    intro heq
    have hlength := congrArg List.length heq
    simp at hlength
  rw [hends.extension, if_neg hup, extensionOf_append (by decide), if_neg hstem]

theorem extension_of_unpromising {path : String} (h : Unpromising path.toList) :
    extension path ≠ some ['b', 'i', 'n'] := by
  intro hbin
  cases h with
  | nowhere h =>
      rw [extension, fileName, components_of_nowhere h] at hbin
      cases hbin
  | up h =>
      rw [h.extension, if_pos rfl] at hbin
      cases hbin
  | noDot h hdot =>
      rw [h.extension, extensionOf_of_not_mem hdot, ite_self] at hbin
      cases hbin
  | @hidden name h hdot =>
      rw [h.extension, ← List.nil_append ('.' :: name), extensionOf_append hdot, if_pos rfl,
        ite_self] at hbin
      cases hbin
  | other h hstem hdot hne =>
      rw [h.extension, extensionOf_append hdot, if_neg hstem] at hbin
      split at hbin
      · cases hbin
      · exact hne (Option.some.inj hbin)

theorem extension_eq_bin_iff {path : String} :
    extension path = some ['b', 'i', 'n'] ↔ Promises path.toList := by
  constructor
  · intro hbin
    rcases promises_or_unpromising path.toList with h | h
    · exact h
    · exact absurd hbin (extension_of_unpromising h)
  · exact extension_of_promises

theorem not_promises_iff {path : String} : ¬ Promises path.toList ↔ Unpromising path.toList := by
  constructor
  · exact (promises_or_unpromising path.toList).resolve_left
  · intro h hpromises
    exact extension_of_unpromising h (extension_of_promises hpromises)

theorem checkExtension_eq_nil_iff {path : String} :
    checkExtension path = [] ↔ extension path = some ['b', 'i', 'n'] := by
  by_cases hbin : extension path = some ['b', 'i', 'n']
  · simp [checkExtension, hbin]
  · simp [checkExtension, hbin]

theorem checkExtension_of_not_promises {path : String} (h : ¬ Promises path.toList) :
    checkExtension path = [extensionWarning path] :=
  if_neg fun hbin => h (extension_eq_bin_iff.mp hbin)

theorem extension_append {path trail : String} (h : Trailing trail.toList) :
    extension (path ++ trail) = extension path := by
  rw [extension, extension, String.toList_append, fileName, h.components_append, fileName]

/-- A folder has no say in the extension. -/
theorem extension_of_parts {folder part trail : String} (hfolder : IsFolder folder.toList)
    (hpart : IsName part.toList) (htrail : Trailing trail.toList) :
    extension (folder ++ part ++ trail)
      = if part.toList = ['.', '.'] then none else extensionOf part.toList :=
  Ends.extension ⟨folder.toList, trail.toList, by simp, hfolder, hpart, htrail⟩

/-- **THE WARNING GOES BY THE NAME ALONE.**  A path is passed over in silence
    exactly if it promises a binary, and else is worth one warning that shows it as
    it was given, for a fault that can be named.  Nothing depends on the folder, or
    on separators and single dots behind the name. -/
theorem checkExtension_of_shape :
    (∀ path : String,
      (checkExtension path = [] ↔ Promises path.toList) ∧
      (¬ Promises path.toList → checkExtension path = [⟨.warn, .program,
        path ++ " does not have a .bin extension, treating it as a raw binary anyway"⟩]) ∧
      (¬ Promises path.toList ↔ Unpromising path.toList)) ∧
    (∀ folder folder' part trail : String, IsFolder folder.toList → IsFolder folder'.toList →
      IsName part.toList → Trailing trail.toList →
      (checkExtension (folder ++ part ++ trail) = [] ↔
        checkExtension (folder' ++ part ++ trail) = [])) ∧
    (∀ path : String,
      (checkExtension (path ++ "/") = [] ↔ checkExtension path = []) ∧
      (checkExtension (path ++ "/.") = [] ↔ checkExtension path = [])) := by
  refine ⟨?_, ?_, ?_⟩
  · intro path
    exact ⟨checkExtension_eq_nil_iff.trans extension_eq_bin_iff, checkExtension_of_not_promises,
      not_promises_iff⟩
  · intro folder folder' part trail hfolder hfolder' hpart htrail
    rw [checkExtension_eq_nil_iff, checkExtension_eq_nil_iff,
      extension_of_parts hfolder hpart htrail, extension_of_parts hfolder' hpart htrail]
  · intro path
    have hslash : Trailing "/".toList := .slash .nil
    have hdot : Trailing "/.".toList := .dot .nil
    rw [checkExtension_eq_nil_iff, checkExtension_eq_nil_iff, checkExtension_eq_nil_iff,
      extension_append hslash, extension_append hdot]
    exact ⟨Iff.rfl, Iff.rfl⟩

/-- Two dots may open a name, but end a path by going up. -/
theorem checkExtension_of_shape_dots :
    Promises "x.d/..bin/./".toList ∧
      checkExtension "a.bin/.." = [⟨.warn, .program,
        "a.bin/.. does not have a .bin extension, treating it as a raw binary anyway"⟩] ∧
      (checkExtension ("x.d/" ++ "..bin" ++ "/./") = [] ↔
        checkExtension ("" ++ "..bin" ++ "/./") = []) := by
  obtain ⟨hpath, hfolder, -⟩ := checkExtension_of_shape
  refine ⟨(hpath _).1.mp (by decide +kernel), (hpath _).2.1 ?_, ?_⟩
  · rw [← (hpath _).1]
    decide +kernel
  · exact hfolder "x.d/" "" "..bin" "/./" (.inr rfl) (.inl rfl)
      ⟨by decide, by decide, by decide⟩ (.dot (.slash .nil))

end Mips32.Path
