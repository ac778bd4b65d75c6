import RoutePriority.Profile.Files

/-!
# Looking profiles up

A profile that is not asked for by the path of its file is looked for in a directory, under its name
with each extension in turn.  The extension that tells the format is read off the path again, and
`extension?_candidate` says that both agree, whatever dots, slashes and blanks the name has, unless
nothing stands after its last slash: then the file has nothing but a dot before the extension, which
is no extension of a path.

So a profile that is found is read in the format of the extension under which it was found
(`load_located`), except where the name is empty or ends with a slash.
-/

namespace RoutePriority

namespace Path

/-! ## The last part of a path -/

/-- What stands after the last slash of a path, which may be nothing. -/
structure LastPart (path last : List Char) : Prop where
  exists_front : ∃ front, path = front ++ last ∧ (front = [] ∨ ∃ before, front = before ++ ['/'])
  notMem : '/' ∉ last

section LastPart

variable {path last suffix stem : List Char} {name directory extension : String}

/-- Every path has a last part.  One more character in front belongs to it only if no slash comes
before it. -/
theorem exists_lastPart (path : List Char) : ∃ last, LastPart path last := by
  induction path with
  | nil => exact ⟨[], ⟨[], rfl, Or.inl rfl⟩, by simp⟩
  | cons c rest ih =>
      obtain ⟨last, ⟨front, hrest, hfront⟩, hnotMem⟩ := ih
      rcases hfront with rfl | ⟨before, rfl⟩
      · by_cases hslash : c = '/'
        · exact ⟨last, ⟨[c], by rw [hrest]; rfl, Or.inr ⟨[], by rw [hslash]; rfl⟩⟩, hnotMem⟩
        · exact ⟨c :: last, ⟨[], by rw [hrest]; rfl, Or.inl rfl⟩, by
            simp [hnotMem, Ne.symm hslash]⟩
      · exact ⟨last, ⟨c :: (before ++ ['/']), by rw [hrest]; rfl, Or.inr ⟨c :: before, rfl⟩⟩,
          hnotMem⟩

/-- What is appended without a slash belongs to the last part. -/
theorem LastPart.append (h : LastPart path last) (hsuffix : '/' ∉ suffix) :
    LastPart (path ++ suffix) (last ++ suffix) := by
  obtain ⟨front, rfl, hfront⟩ := h.exists_front
  exact ⟨⟨front, List.append_assoc .., hfront⟩, by simp [h.notMem, hsuffix]⟩

/-- A part that is put in front of a path, and ends, leaves the last part as it is. -/
theorem LastPart.prepend (h : LastPart path last) {front : List Char}
    (hfront : front = [] ∨ ∃ before, front = before ++ ['/']) : LastPart (front ++ path) last := by
  obtain ⟨others, rfl, hothers⟩ := h.exists_front
  refine ⟨⟨front ++ others, (List.append_assoc ..).symm, ?_⟩, h.notMem⟩
  rcases hothers with rfl | ⟨before, rfl⟩
  · simpa using hfront
  · exact Or.inr ⟨front ++ before, (List.append_assoc ..).symm⟩

/-- A name has the same last part wherever it is looked up. -/
theorem lastPart_join (h : LastPart name.toList last) :
    LastPart (join directory name).toList last := by
  rw [join]
  split
  · exact h
  · split
    · rename_i hdirectory
      rw [String.toList_append]
      refine h.prepend ?_
      rcases Bool.or_eq_true_iff.mp hdirectory with hempty | hends
      · exact Or.inl (by simpa using hempty)
      · change directory.toSlice.endsWith "/" = true at hends
        obtain ⟨before, hbefore⟩ := String.Slice.endsWith_string_iff.mp hends
        exact Or.inr ⟨before, by simpa using hbefore.symm⟩
    · rw [String.toList_append, String.toList_append]
      exact h.prepend (Or.inr ⟨directory.toList, rfl⟩)

/-- The last part is the last of the parts. -/
theorem parts_of_lastPart (h : LastPart path last) : ∃ before, parts path = before ++ [last] := by
  have hlast : parts last = [last] := List.splitOn_eq_singleton h.notMem
  obtain ⟨front, rfl, hfront⟩ := h.exists_front
  rcases hfront with rfl | ⟨before, rfl⟩
  · exact ⟨[], hlast⟩
  · refine ⟨parts before, ?_⟩
    rw [← hlast, List.append_assoc]
    exact List.splitOn_append_cons_self before last

/-! ## The extension of a file -/

/-- The last part of a path is the name of the file if it has another character than dots. -/
theorem fileName?_of_lastPart (h : LastPart path last) {c : Char} (hmem : c ∈ last)
    (hdot : c ≠ '.') : fileName? path = some last := by
  obtain ⟨before, hparts⟩ := parts_of_lastPart h
  have hempty : last ≠ [] := List.ne_nil_of_mem hmem
  have hone : last ≠ ['.'] := by
    intro h
    simp [h, hdot] at hmem
  have htwo : last ≠ ['.', '.'] := by
    intro h
    simp [h, hdot] at hmem
  simp [fileName?, hparts, hempty, hone, htwo]

/-- The extension of a name that is made of a stem and an extension is this extension; nothing
before it makes it part of the stem. -/
theorem extensionOfName?_append {extension : List Char} (hdot : '.' ∉ extension) :
    extensionOfName? (stem ++ '.' :: extension) = if stem = [] then none else some extension := by
  have hplain : ∀ c ∈ extension.reverse, decide (c ≠ '.') = true := by
    intro c hc
    have hne : c ≠ '.' := fun h => hdot (h ▸ List.mem_reverse.mp hc)
    simpa using hne
  have hbackwards : (stem ++ '.' :: extension).reverse =
      extension.reverse ++ '.' :: stem.reverse := by
    simp
  rw [extensionOfName?, hbackwards, List.dropWhile_append_of_pos hplain,
    List.takeWhile_append_of_pos hplain]
  cases hstem : stem.reverse with
  | nil => simp [List.reverse_eq_nil_iff.mp hstem]
  | cons c rest =>
      have hne : stem ≠ [] := by
        intro h
        simp [h] at hstem
      simp [hne]

/-- The extension that is put behind a name is read off again, wherever the name is looked up, if
something stands after the last slash of the name. -/
theorem extension?_candidate (hstem : LastPart name.toList stem) (hempty : extension ≠ "")
    (hdot : '.' ∉ extension.toList) (hslash : '/' ∉ extension.toList) :
    extension? (join directory (name ++ "." ++ extension)) =
      if stem = [] then none else some extension := by
  have hlast : LastPart (join directory (name ++ "." ++ extension)).toList
      (stem ++ '.' :: extension.toList) := by
    apply lastPart_join
    rw [String.toList_append, String.toList_append, List.append_assoc]
    exact hstem.append (by simpa using hslash)
  obtain ⟨c, hc⟩ := List.exists_mem_of_ne_nil _ (mt String.toList_eq_nil_iff.mp hempty)
  have hname := fileName?_of_lastPart hlast (c := c) (by simp [hc]) fun h => hdot (h ▸ hc)
  rw [extension?, hname, Option.bind_some, extensionOfName?_append hdot]
  split <;> simp

end LastPart

end Path

namespace Profile

/-! ## Finding a file -/

/-- The path at which a profile of a name is looked for, with an extension. -/
def candidate (name directory extension : String) : String :=
  Path.join directory (name ++ "." ++ extension)

/-- There is a file for the extension, and for none of those that are tried before it. -/
structure FirstExtension (files : Files Id) (name directory extension : String) : Prop where
  isFile : (files.isFile (candidate name directory extension)).run = true
  exists_split : ∃ before after, ProfileFormat.extensions = before ++ extension :: after ∧
    ∀ earlier ∈ before, (files.isFile (candidate name directory earlier)).run = false

section Locate

variable {files : Files Id} {name directory path extension : String}

/-- The extension found is one of the known ones. -/
theorem FirstExtension.mem_extensions (h : FirstExtension files name directory extension) :
    extension ∈ ProfileFormat.extensions := by
  obtain ⟨before, after, hsplit, -⟩ := h.exists_split
  simp [hsplit]

/-- The first file of a list of paths is found by asking for each in turn. -/
theorem run_firstFile? (files : Files Id) (paths : List String) :
    (firstFile? files paths).run = paths.find? fun path => (files.isFile path).run := by
  induction paths with
  | nil => rfl
  | cons path rest ih =>
      change (if (files.isFile path).run then some path else (firstFile? files rest).run) = _
      rw [List.find?_cons, ih]
      cases (files.isFile path).run <;> rfl

/-- The first candidate that is a file is the one, and without any the profile is not found. -/
theorem run_locate (files : Files Id) (name directory : String) :
    (locate files name directory).run =
      match (candidates name directory).find? fun path => (files.isFile path).run with
      | some path => .ok path
      | none => .error (.notFound name) := by
  rw [← run_firstFile?]
  change (match (firstFile? files (candidates name directory)).run with
    | some path => Except.ok path
    | none => Except.error (ProfileError.notFound name)) = _
  rfl

/-- The search through the extensions finds the first one with a file. -/
theorem find?_extensions_eq_some_iff :
    (ProfileFormat.extensions.find? fun extension =>
        (files.isFile (candidate name directory extension)).run) = some extension ↔
      FirstExtension files name directory extension := by
  rw [List.find?_eq_some_iff_append]
  constructor
  · intro h
    obtain ⟨hfile, before, after, hsplit, hbefore⟩ := h
    exact ⟨hfile, before, after, hsplit, by simpa using hbefore⟩
  · intro h
    obtain ⟨hfile, before, after, hsplit, hbefore⟩ := h
    exact ⟨hfile, before, after, hsplit, by simpa using hbefore⟩

/-- A profile is at the path that is asked for, or else at the first of its paths in the directory
with a file. -/
theorem locate_eq_ok_iff : (locate files name directory).run = .ok path ↔
    (files.isFile name).run = true ∧ path = name ∨
      (files.isFile name).run = false ∧
        ∃ extension, FirstExtension files name directory extension ∧
          path = candidate name directory extension := by
  rw [run_locate, candidates, List.find?_cons]
  cases (files.isFile name).run with
  | true => simp [eq_comm]
  | false =>
      have hcandidates : ((ProfileFormat.extensions.map fun extension =>
          Path.join directory (name ++ "." ++ extension)).find? fun path =>
            (files.isFile path).run) =
          (ProfileFormat.extensions.find? fun extension =>
            (files.isFile (candidate name directory extension)).run).map
              (candidate name directory) :=
        List.find?_map ..
      simp only [hcandidates, ← find?_extensions_eq_some_iff]
      cases ProfileFormat.extensions.find? fun extension =>
          (files.isFile (candidate name directory extension)).run with
      | none => simp
      | some extension => simp [eq_comm]

end Locate

/-! ## Reading what was found -/

/-- What the file at a path holds, read in a format. -/
def readAs (files : Files Id) (format : ProfileFormat) (path : String) :
    Except ProfileError Profile :=
  match (files.text? path).run with
  | none => .error .unreadable
  | some text => ofText format text

/-- Whether something stands after the last slash of a name: it is not empty and does not end with
a slash. -/
def hasLastPart (name : String) : Bool := name.toList.getLast?.any (· ≠ '/')

section Load

variable {files : Files Id} {name directory path extension : String} {format : ProfileFormat}

/-- The file is read in the format of its path, and not at all if this has none. -/
theorem run_load (files : Files Id) (path : String) :
    (load files path).run =
      match ProfileFormat.ofPath? path with
      | none => .error (.unsupportedFormat path)
      | some format => readAs files format path := by
  rw [load]
  cases ProfileFormat.ofPath? path with
  | none => rfl
  | some format =>
      change (match (files.text? path).run with
        | none => Except.error ProfileError.unreadable
        | some text => ofText format text) = _
      rfl

/-- Whatever a file holds, it is of the format that it is read in. -/
theorem readAs_ne_unsupportedFormat (files : Files Id) (format : ProfileFormat)
    (path other : String) : readAs files format path ≠ .error (.unsupportedFormat other) := by
  unfold readAs
  split
  · simp
  · unfold ofText
    dsimp only
    split <;> simp

/-- A name has a last part if this part is not empty. -/
theorem hasLastPart_iff {stem : List Char} (h : Path.LastPart name.toList stem) :
    hasLastPart name = true ↔ stem ≠ [] := by
  obtain ⟨⟨front, hname, hfront⟩, hnotMem⟩ := h
  rw [hasLastPart, hname]
  rcases stem.eq_nil_or_concat with rfl | ⟨others, c, rfl⟩
  · rcases hfront with rfl | ⟨before, rfl⟩ <;> simp
  · have hc : c ≠ '/' := by
      intro h
      simp [h] at hnotMem
    simp [← List.append_assoc, hc]

/-- A file that is found has the format of its extension, if it has an extension. -/
theorem ofPath?_candidate (h : extension ∈ ProfileFormat.extensions) :
    ProfileFormat.ofPath? (candidate name directory extension) =
      if hasLastPart name then ProfileFormat.ofExtension? extension else none := by
  obtain ⟨stem, hstem⟩ := Path.exists_lastPart name.toList
  have hplain : extension ≠ "" ∧ '.' ∉ extension.toList ∧ '/' ∉ extension.toList := by
    revert extension
    decide
  rw [ProfileFormat.ofPath?, candidate,
    Path.extension?_candidate hstem hplain.1 hplain.2.1 hplain.2.2]
  by_cases hempty : stem = []
  · have hlast : ¬ hasLastPart name = true := fun h => (hasLastPart_iff hstem).mp h hempty
    rw [if_pos hempty, if_neg hlast, Option.bind_none]
  · rw [if_neg hempty, if_pos ((hasLastPart_iff hstem).mpr hempty), Option.bind_some]

/-- The extensions that are tried are those of formats. -/
theorem exists_ofExtension?_eq_some (h : extension ∈ ProfileFormat.extensions) :
    ∃ format, ProfileFormat.ofExtension? extension = some format := by
  have hsome : ∀ extension ∈ ProfileFormat.extensions,
      (ProfileFormat.ofExtension? extension).isSome = true := by
    decide +kernel
  exact Option.isSome_iff_exists.mp (hsome extension h)

/-- A profile that is found by its name is at the first of its paths in the directory with a file.
The file is read in the format of the extension of this path if something stands after the last
slash of the name; otherwise the path has no extension, and its format is called unsupported. -/
theorem load_located (files : Files Id) {name directory path : String}
    (hname : (files.isFile name).run = false)
    (hpath : (locate files name directory).run = .ok path) :
    ∃ extension format, FirstExtension files name directory extension ∧
      ProfileFormat.ofExtension? extension = some format ∧
      path = candidate name directory extension ∧ (files.isFile path).run = true ∧
      (hasLastPart name = true →
        (load files path).run = readAs files format path ∧
          ∀ other, (load files path).run ≠ .error (.unsupportedFormat other)) ∧
      (hasLastPart name = false → (load files path).run = .error (.unsupportedFormat path)) := by
  rcases locate_eq_ok_iff.mp hpath with ⟨hfile, -⟩ | ⟨-, extension, hfirst, rfl⟩
  · rw [hname] at hfile
    cases hfile
  · have hmem := hfirst.mem_extensions
    obtain ⟨format, hformat⟩ := exists_ofExtension?_eq_some hmem
    refine ⟨extension, format, hfirst, hformat, rfl, hfirst.isFile, fun hlast => ?_,
      fun hlast => ?_⟩
    · have hload : (load files (candidate name directory extension)).run =
          readAs files format (candidate name directory extension) := by
        rw [run_load, ofPath?_candidate hmem, if_pos hlast, hformat]
      refine ⟨hload, fun other => ?_⟩
      rw [hload]
      exact readAs_ne_unsupportedFormat files format _ other
    · rw [run_load, ofPath?_candidate hmem, hlast]
      rfl

/-- A name with dots in it, and files for two of its extensions: the first one is read.  No name,
and a file whose name is nothing but an extension. -/
theorem load_located_touring :
    let files : Files Id :=
      { isFile := fun path => decide (path ∈
          ["profiles/.json", "profiles/bikes/v2.1.json", "profiles/bikes/v2.1.yaml"])
        text? := fun _ => some "name: touring\n" }
    (files.isFile "bikes/v2.1").run = false ∧
      (locate files "bikes/v2.1" "profiles").run = .ok "profiles/bikes/v2.1.yaml" ∧
      (load files "profiles/bikes/v2.1.yaml").run = ofText .yaml "name: touring\n" ∧
      (files.isFile "").run = false ∧
      (locate files "" "profiles").run = .ok "profiles/.json" ∧
      (load files "profiles/.json").run = .error (.unsupportedFormat "profiles/.json") := by
  intro files
  have htouring : (files.isFile "bikes/v2.1").run = false := by decide
  have hempty : (files.isFile "").run = false := by decide
  have hfound : (candidates "bikes/v2.1" "profiles").find? (fun path => (files.isFile path).run) =
      some "profiles/bikes/v2.1.yaml" := by
    decide +kernel
  have hhidden : (candidates "" "profiles").find? (fun path => (files.isFile path).run) =
      some "profiles/.json" := by
    decide +kernel
  have hlocated : (locate files "bikes/v2.1" "profiles").run = .ok "profiles/bikes/v2.1.yaml" := by
    rw [run_locate, hfound]
  have hlocated' : (locate files "" "profiles").run = .ok "profiles/.json" := by
    rw [run_locate, hhidden]
  obtain ⟨extension, format, hfirst, hformat, hpath, -, hload, -⟩ :=
    load_located files htouring hlocated
  obtain ⟨-, -, -, -, -, -, -, hrefused⟩ := load_located files hempty hlocated'
  have hyaml : extension = "yaml" := by
    have honly : ∀ other ∈ ProfileFormat.extensions,
        "profiles/bikes/v2.1.yaml" = candidate "bikes/v2.1" "profiles" other → other = "yaml" := by
      decide +kernel
    exact honly extension hfirst.mem_extensions hpath
  subst hyaml
  obtain rfl : .yaml = format := Option.some.inj (Eq.trans (by decide +kernel) hformat)
  exact ⟨htouring, hlocated, (hload rfl).1, hempty, hlocated', hrefused rfl⟩

/-- A file is found for a name that ends with a slash, and then called one of an unsupported
format. -/
theorem not_supported_of_trailing_slash :
    let files : Files Id :=
      { isFile := fun path => decide (path = "profiles/bikes/.yml")
        text? := fun _ => some "name: bike\n" }
    (files.isFile "bikes/").run = false ∧
      (locate files "bikes/" "profiles").run = .ok "profiles/bikes/.yml" ∧
      (load files "profiles/bikes/.yml").run =
        .error (.unsupportedFormat "profiles/bikes/.yml") := by
  intro files
  have hfound : (candidates "bikes/" "profiles").find? (fun path => (files.isFile path).run) =
      some "profiles/bikes/.yml" := by
    decide +kernel
  have hformat : ProfileFormat.ofPath? "profiles/bikes/.yml" = none := by
    decide +kernel
  refine ⟨by decide, ?_, ?_⟩
  · rw [run_locate, hfound]
  · rw [run_load, hformat]

end Load

end Profile

end RoutePriority
