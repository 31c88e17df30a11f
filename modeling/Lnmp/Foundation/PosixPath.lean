import Lnmp.Foundation.Url

/-!
# POSIX paths

`normpath`, `join` and `abspath` of Python's `posixpath`, and what a path leads to in a file system
without symbolic links. There a location is the list of its names from the root on, and a path that
leads anywhere leads to the location that its parts say (`FileSystem.resolve_eq_some`): two dots
go up to the location in front of it, whatever is there.

A normal path says its location literally (`locationOf_normpath`). One location lies below another
when its path goes on behind that of the other with a slash (`locationOf_isPrefix_iff`): a path that
goes on with other characters names a sibling.
-/

set_option autoImplicit false
set_option relaxedAutoImplicit false

namespace Lnmp.Foundation.PosixPath

open IpAddress Url

/-! ### Locations -/

/-- Where something is: its names from the root on. -/
abbrev Location := List (List Char)

/-- The part that goes up. -/
def dotDot : List Char := ['.', '.']

/-- A name of something in a directory. -/
structure IsName (part : List Char) : Prop where
  nonempty : part ≠ []
  dot : part ≠ ['.']
  dotDot : part ≠ dotDot
  slash : '/' ∉ part

/-- A part of a path, behind a location. -/
def stepInto (location : Location) (part : List Char) : Location :=
  if part = [] ∨ part = ['.'] then location
  else if part = dotDot then location.dropLast
  else location ++ [part]

/-- The location that an absolute path says. -/
def locationOf (path : List Char) : Location := (splitChars '/' path).foldl stepInto []

example : locationOf "/usr//lib/./../bin".toList = ["usr".toList, "bin".toList] := by decide

section Locations

variable {location names : Location} {part path : List Char}

theorem stepInto_of_isName (hpart : IsName part) : stepInto location part = location ++ [part] := by
  rw [stepInto, if_neg (not_or.mpr ⟨hpart.nonempty, hpart.dot⟩), if_neg hpart.dotDot]

theorem isName_of_mem_stepInto (hlocation : ∀ name ∈ location, IsName name) (hpart : '/' ∉ part) :
    ∀ name ∈ stepInto location part, IsName name := by
  rw [stepInto]
  split_ifs with hempty hup
  · exact hlocation
  · exact fun name hname ↦ hlocation name (List.dropLast_subset _ hname)
  · intro name hname
    rcases List.mem_append.mp hname with hmem | hmem
    · exact hlocation name hmem
    · obtain rfl := List.mem_singleton.mp hmem
      exact ⟨fun hnil ↦ hempty (Or.inl hnil), fun hdot ↦ hempty (Or.inr hdot), hup, hpart⟩

theorem isName_of_mem_foldl {parts : List (List Char)} (hlocation : ∀ name ∈ location, IsName name)
    (hparts : ∀ part ∈ parts, '/' ∉ part) :
    ∀ name ∈ parts.foldl stepInto location, IsName name := by
  induction parts generalizing location with
  | nil => exact hlocation
  | cons part rest ih =>
    exact ih (isName_of_mem_stepInto hlocation (hparts part (List.mem_cons_self ..)))
      fun other hother ↦ hparts other (List.mem_cons_of_mem _ hother)

theorem isName_of_mem_locationOf : ∀ name ∈ locationOf path, IsName name :=
  isName_of_mem_foldl (fun _ hmem ↦ absurd hmem List.not_mem_nil)
    fun _ hpart ↦ not_mem_splitChars hpart

/-- Names are stepped into one after the other. -/
theorem foldl_stepInto_names (hnames : ∀ name ∈ names, IsName name) :
    names.foldl stepInto location = location ++ names := by
  induction names generalizing location with
  | nil => exact (List.append_nil _).symm
  | cons name rest ih =>
    rw [List.foldl_cons, stepInto_of_isName (hnames name (List.mem_cons_self ..)),
      ih fun other hother ↦ hnames other (List.mem_cons_of_mem _ hother), List.append_assoc,
      List.singleton_append]

theorem locationOf_cons_slash (path : List Char) : locationOf ('/' :: path) = locationOf path := by
  rw [locationOf, splitChars, if_pos rfl, List.foldl_cons]
  rfl

/-- Names that are joined are a path to their location. -/
theorem locationOf_joinChars (hnames : ∀ name ∈ names, IsName name) :
    locationOf (joinChars '/' names) = names := by
  by_cases hne : names = []
  · rw [hne]
    rfl
  · have hparts : ∀ name ∈ names, ∀ char ∈ name, char ≠ '/' := fun name hname char hchar hsame ↦
      (hnames name hname).slash (hsame ▸ hchar)
    rw [locationOf, splitChars_joinChars hne hparts, foldl_stepInto_names hnames, List.nil_append]

theorem locationOf_replicate_append (hnames : ∀ name ∈ names, IsName name) (slashes : ℕ) :
    locationOf (List.replicate slashes '/' ++ joinChars '/' names) = names := by
  induction slashes with
  | zero => exact locationOf_joinChars hnames
  | succ slashes ih => rw [List.replicate_succ, List.cons_append, locationOf_cons_slash, ih]

end Locations

/-! ### Normal paths -/

/-- A round of the loop of `normpath`. -/
def normStep (initialSlashes : ℕ) (newComps : List (List Char)) (comp : List Char) :
    List (List Char) :=
  if comp = [] ∨ comp = ['.'] then newComps
  else if comp ≠ dotDot ∨ (initialSlashes = 0 ∧ newComps = []) ∨
      newComps.getLast? = some dotDot then newComps ++ [comp]
  else newComps.dropLast

/-- The slashes with which the normal path starts: two are kept, and more are one. -/
def initialSlashes (path : List Char) : ℕ :=
  if path.head? ≠ some '/' then 0
  else if ['/', '/'] <+: path ∧ ¬ ['/', '/', '/'] <+: path then 2
  else 1

/-- `os.path.normpath`. -/
def normpath (path : List Char) : List Char :=
  if path = [] then ['.']
  else
    let newComps := (splitChars '/' path).foldl (normStep (initialSlashes path)) []
    let normal := List.replicate (initialSlashes path) '/' ++ joinChars '/' newComps
    if normal = [] then ['.'] else normal

/-- `os.path.join`. -/
def joinPaths (path other : List Char) : List Char :=
  if other.head? = some '/' then other
  else if path = [] ∨ path.getLast? = some '/' then path ++ other
  else path ++ '/' :: other

/-- `os.path.abspath`. -/
def abspath (cwd path : List Char) : List Char :=
  if path.head? = some '/' then normpath path else normpath (joinPaths cwd path)

example : abspath "/srv".toList "a/../../etc/./x".toList = "/etc/x".toList := by decide

section Normal

variable {path : List Char}

theorem initialSlashes_pos (hpath : path.head? = some '/') : 0 < initialSlashes path := by
  rw [initialSlashes, if_neg (not_not.mpr hpath)]
  split_ifs <;> decide

/-- Behind a slash `normpath` steps from name to name. -/
theorem foldl_normStep {slashes : ℕ} (hslashes : slashes ≠ 0) {location : Location}
    (hlocation : ∀ name ∈ location, IsName name) {parts : List (List Char)}
    (hparts : ∀ part ∈ parts, '/' ∉ part) :
    parts.foldl (normStep slashes) location = parts.foldl stepInto location := by
  induction parts generalizing location with
  | nil => rfl
  | cons part rest ih =>
    have hup : location.getLast? ≠ some dotDot := fun hlast ↦
      (hlocation dotDot (List.mem_of_getLast? hlast)).dotDot rfl
    have hstep : normStep slashes location part = stepInto location part := by
      rw [normStep, stepInto]
      by_cases hpart : part = dotDot <;> simp [hpart, hup, hslashes]
    rw [List.foldl_cons, List.foldl_cons, hstep]
    exact ih (isName_of_mem_stepInto hlocation (hparts part (List.mem_cons_self ..)))
      fun other hother ↦ hparts other (List.mem_cons_of_mem _ hother)

/-- A normal path is the names of its location. -/
theorem normpath_eq (hpath : path.head? = some '/') :
    normpath path =
      List.replicate (initialSlashes path) '/' ++ joinChars '/' (locationOf path) := by
  have hne : path ≠ [] := by
    rintro rfl
    exact absurd hpath (by decide)
  have hpos := initialSlashes_pos hpath
  have hnormal : List.replicate (initialSlashes path) '/' ++ joinChars '/' (locationOf path) ≠
      [] := by
    intro hnil
    have hzero := congrArg List.length (List.append_eq_nil_iff.mp hnil).1
    rw [List.length_replicate, List.length_nil] at hzero
    omega
  rw [normpath, if_neg hne]
  dsimp only
  rw [foldl_normStep hpos.ne' (fun _ hmem ↦ absurd hmem List.not_mem_nil)
    fun _ hpart ↦ not_mem_splitChars hpart]
  exact if_neg hnormal

theorem locationOf_normpath (hpath : path.head? = some '/') :
    locationOf (normpath path) = locationOf path := by
  rw [normpath_eq hpath]
  exact locationOf_replicate_append isName_of_mem_locationOf _

theorem head?_normpath (hpath : path.head? = some '/') : (normpath path).head? = some '/' := by
  obtain ⟨slashes, hslashes⟩ := Nat.exists_eq_add_of_lt (initialSlashes_pos hpath)
  rw [normpath_eq hpath, hslashes, Nat.zero_add, List.replicate_succ]
  rfl

theorem head?_joinPaths {cwd : List Char} (hcwd : cwd.head? = some '/') :
    (joinPaths cwd path).head? = some '/' := by
  obtain ⟨rest, rfl⟩ : ∃ rest, cwd = '/' :: rest := by
    cases cwd with
    | nil => exact absurd hcwd (by decide)
    | cons char rest => exact ⟨rest, by rw [Option.some.inj hcwd]⟩
  rw [joinPaths]
  split_ifs with hother hfront
  · exact hother
  · rfl
  · rfl

/-- Behind a slash a path goes on from the location in front of it. -/
theorem locationOf_append_cons (front rest : List Char) :
    locationOf (front ++ '/' :: rest) =
      (splitChars '/' rest).foldl stepInto (locationOf front) := by
  rw [locationOf, splitChars_append_cons, List.foldl_append, locationOf]

/-- A path that is not absolute goes on from the one that it is joined to. -/
theorem locationOf_joinPaths {other : List Char} (hother : other.head? ≠ some '/') :
    locationOf (joinPaths path other) =
      (splitChars '/' other).foldl stepInto (locationOf path) := by
  rw [joinPaths, if_neg hother]
  split_ifs with hpath
  · rcases hpath with rfl | hslash
    · rfl
    · obtain ⟨front, rfl⟩ := List.getLast?_eq_some_iff.mp hslash
      rw [List.append_assoc, List.singleton_append, locationOf_append_cons,
        locationOf_append_cons]
      rfl
  · exact locationOf_append_cons _ _

/-- The last part of a path that is joined to a name is the name. -/
theorem exists_splitChars_joinPaths {name : List Char} (hname : IsName name) (path : List Char) :
    ∃ parts, splitChars '/' (joinPaths path name) = parts ++ [name] := by
  have hhead : name.head? ≠ some '/' := fun hslash ↦ hname.slash (List.mem_of_head? hslash)
  have hsplit := splitChars_of_not_mem hname.slash
  rw [joinPaths, if_neg hhead]
  split_ifs with hpath
  · rcases hpath with rfl | hslash
    · exact ⟨[], by rw [List.nil_append, hsplit, List.nil_append]⟩
    · obtain ⟨front, rfl⟩ := List.getLast?_eq_some_iff.mp hslash
      rw [List.append_assoc, List.singleton_append, splitChars_append_cons, hsplit]
      exact ⟨_, rfl⟩
  · rw [splitChars_append_cons, hsplit]
    exact ⟨_, rfl⟩

theorem initialSlashes_le_two (path : List Char) : initialSlashes path ≤ 2 := by
  rw [initialSlashes]
  split_ifs <;> decide

/-- One slash and two are what `initialSlashes` counts. -/
theorem initialSlashes_replicate_append {rest : List Char} (hrest : rest.head? ≠ some '/')
    {slashes : ℕ} (hpos : 0 < slashes) (hle : slashes ≤ 2) :
    initialSlashes (List.replicate slashes '/' ++ rest) = slashes := by
  have hnone : ∀ other, ¬ '/' :: other <+: rest := by
    rintro other ⟨behind, rfl⟩
    exact hrest rfl
  obtain rfl | rfl : slashes = 1 ∨ slashes = 2 := by omega
  · simp [initialSlashes, hnone]
  · simp [initialSlashes, List.replicate_succ, hnone]

theorem head?_joinChars_ne {names : Location} (hnames : ∀ name ∈ names, IsName name) :
    (joinChars '/' names).head? ≠ some '/' := by
  intro hslash
  cases names with
  | nil => exact absurd hslash nofun
  | cons name rest =>
    have hname := hnames name (List.mem_cons_self ..)
    have hhead : (joinChars '/' (name :: rest)).head? = name.head? := by
      cases rest with
      | nil => rfl
      | cons next rest => rw [joinChars, List.head?_append_of_ne_nil _ hname.nonempty]
    exact hname.slash (List.mem_of_head? (hhead ▸ hslash))

/-- The normal form keeps the slashes at the start. -/
theorem initialSlashes_normpath (hpath : path.head? = some '/') :
    initialSlashes (normpath path) = initialSlashes path := by
  rw [normpath_eq hpath]
  exact initialSlashes_replicate_append (head?_joinChars_ne isName_of_mem_locationOf)
    (initialSlashes_pos hpath) (initialSlashes_le_two path)

/-- An absolute path is the normal form of one. -/
theorem exists_abspath_eq {cwd : List Char} (hcwd : cwd.head? = some '/') (path : List Char) :
    ∃ absolute, absolute.head? = some '/' ∧ abspath cwd path = normpath absolute ∧
      ∃ parts, locationOf absolute = (parts ++ splitChars '/' path).foldl stepInto [] := by
  rw [abspath]
  split_ifs with hpath
  · exact ⟨path, hpath, rfl, [], rfl⟩
  · refine ⟨_, head?_joinPaths hcwd, rfl, splitChars '/' cwd, ?_⟩
    rw [locationOf_joinPaths hpath, List.foldl_append]
    rfl

/-- An absolute path starts with a slash. -/
theorem head?_abspath {cwd : List Char} (hcwd : cwd.head? = some '/') :
    (abspath cwd path).head? = some '/' := by
  obtain ⟨absolute, hhead, habsolute, -⟩ := exists_abspath_eq hcwd path
  rw [habsolute]
  exact head?_normpath hhead

/-- A path that ends with a name is not the root. -/
theorem locationOf_abspath_ne_nil {cwd name : List Char} (hcwd : cwd.head? = some '/')
    (hname : IsName name) (path : List Char) :
    locationOf (abspath cwd (joinPaths path name)) ≠ [] := by
  obtain ⟨absolute, hhead, habsolute, front, hlocation⟩ :=
    exists_abspath_eq hcwd (joinPaths path name)
  obtain ⟨parts, hparts⟩ := exists_splitChars_joinPaths hname path
  rw [habsolute, locationOf_normpath hhead, hlocation, hparts, ← List.append_assoc,
    List.foldl_append, List.foldl_cons, List.foldl_nil, stepInto_of_isName hname]
  exact List.append_ne_nil_of_right_ne_nil _ (List.cons_ne_nil _ _)

end Normal

/-! ### What lies below a location -/

section Below

variable {names dir : Location} {first second : List Char}

/-- Names go on behind those of a location when their path goes on behind a slash. -/
theorem isPrefix_iff_joinChars (hdir : ∀ name ∈ dir, IsName name)
    (hnames : ∀ name ∈ names, IsName name) (hne : dir ≠ []) :
    dir <+: names ↔ joinChars '/' names = joinChars '/' dir ∨
      joinChars '/' dir ++ ['/'] <+: joinChars '/' names := by
  constructor
  · rintro ⟨rest, rfl⟩
    by_cases hrest : rest = []
    · exact Or.inl (by rw [hrest, List.append_nil])
    · refine Or.inr ⟨joinChars '/' rest, ?_⟩
      rw [joinChars_append hne hrest, List.append_assoc, List.singleton_append]
  · rintro (hsame | ⟨rest, hrest⟩)
    · have hlocations := congrArg locationOf hsame
      rw [locationOf_joinChars hnames, locationOf_joinChars hdir] at hlocations
      exact hlocations ▸ List.prefix_rfl
    · have hparts : ∀ location : Location, (∀ name ∈ location, IsName name) →
          ∀ name ∈ location, ∀ char ∈ name, char ≠ '/' :=
        fun location hlocation name hname char hchar hsame ↦
          (hlocation name hname).slash (hsame ▸ hchar)
      have hnonempty : names ≠ [] := by
        rintro rfl
        exact absurd (List.append_eq_nil_iff.mp (List.append_eq_nil_iff.mp hrest).1).2
          (List.cons_ne_nil _ _)
      have hsplit := congrArg (splitChars '/') hrest
      rw [List.append_assoc, List.singleton_append, splitChars_append_cons,
        splitChars_joinChars hne (hparts dir hdir),
        splitChars_joinChars hnonempty (hparts names hnames)] at hsplit
      exact ⟨_, hsplit⟩

/-- One location is another or lies below it when the normal paths are the same or its path goes on
behind that of the other with a slash. -/
theorem locationOf_isPrefix_iff (hfirst : first.head? = some '/')
    (hsecond : second.head? = some '/')
    (hslashes : initialSlashes first = initialSlashes second) (hne : locationOf first ≠ []) :
    locationOf first <+: locationOf second ↔
      normpath second = normpath first ∨ normpath first ++ ['/'] <+: normpath second := by
  rw [isPrefix_iff_joinChars isName_of_mem_locationOf isName_of_mem_locationOf hne,
    normpath_eq hfirst, normpath_eq hsecond, hslashes, List.append_assoc,
    List.prefix_append_right_inj, List.append_cancel_left_eq]

/-- The same for absolute paths. -/
theorem locationOf_abspath_isPrefix_iff {cwd : List Char} (hcwd : cwd.head? = some '/')
    (hslashes : initialSlashes (abspath cwd first) = initialSlashes (abspath cwd second))
    (hne : locationOf (abspath cwd first) ≠ []) :
    locationOf (abspath cwd first) <+: locationOf (abspath cwd second) ↔
      abspath cwd second = abspath cwd first ∨
        abspath cwd first ++ ['/'] <+: abspath cwd second := by
  obtain ⟨dir, hdir, hfirst, -⟩ := exists_abspath_eq hcwd first
  obtain ⟨path, hpath, hsecond, -⟩ := exists_abspath_eq hcwd second
  rw [hfirst, hsecond] at hslashes ⊢
  rw [hfirst] at hne
  rw [initialSlashes_normpath hdir, initialSlashes_normpath hpath] at hslashes
  rw [locationOf_normpath hdir] at hne ⊢
  rw [locationOf_normpath hpath]
  exact locationOf_isPrefix_iff hdir hpath hslashes hne

end Below

/-! ### File systems -/

/-- What can be at a location. -/
inductive NodeKind
  | directory
  | file
  deriving DecidableEq

/-- A file system without symbolic links. -/
structure FileSystem where
  kind : Location → Option NodeKind
  root : kind [] = some .directory
  parent : ∀ location name, (kind (location ++ [name])).isSome = true →
    kind location = some .directory

/-- The character that no path may contain. -/
def nul : Char := Char.ofNat 0

section Resolving

/-- Where parts of a path lead from a location on. -/
def FileSystem.walk (fs : FileSystem) : Location → List (List Char) → Option Location
  | location, [] => some location
  | location, part :: rest =>
    if fs.kind location = some .directory ∧ (fs.kind (stepInto location part)).isSome = true then
      fs.walk (stepInto location part) rest
    else none

/-- Where an absolute path leads. -/
def FileSystem.resolve (fs : FileSystem) (path : List Char) : Option Location :=
  if nul ∈ path then none else fs.walk [] (splitChars '/' path)

variable {fs : FileSystem} {path : List Char} {location : Location}

theorem FileSystem.walk_eq_some {start : Location} {parts : List (List Char)}
    (hwalk : fs.walk start parts = some location) : location = parts.foldl stepInto start := by
  induction parts generalizing start with
  | nil => exact (Option.some.inj hwalk).symm
  | cons part rest ih =>
    rw [walk] at hwalk
    split_ifs at hwalk
    exact ih hwalk

/-- A path that leads anywhere leads to the location that it says. -/
theorem FileSystem.resolve_eq_some (hresolve : fs.resolve path = some location) :
    location = locationOf path := by
  rw [resolve] at hresolve
  split_ifs at hresolve
  exact walk_eq_some hresolve

theorem FileSystem.not_mem_of_isSome (hresolve : (fs.resolve path).isSome = true) :
    nul ∉ path := by
  intro hmem
  rw [resolve, if_pos hmem] at hresolve
  exact absurd hresolve Bool.false_ne_true

/-- The file system that has a directory everywhere. -/
def FileSystem.everywhere : FileSystem where
  kind := fun _ ↦ some .directory
  root := rfl
  parent := fun _ _ _ ↦ rfl

theorem FileSystem.walk_everywhere (start : Location) (parts : List (List Char)) :
    everywhere.walk start parts = some (parts.foldl stepInto start) := by
  induction parts generalizing start with
  | nil => rfl
  | cons part rest ih =>
    rw [walk, if_pos ⟨rfl, rfl⟩, ih]
    rfl

theorem FileSystem.resolve_everywhere (hpath : nul ∉ path) :
    everywhere.resolve path = some (locationOf path) := by
  rw [resolve, if_neg hpath, walk_everywhere]
  rfl

/-- The file system with one file and the directories above it. -/
def FileSystem.onlyFile (location : Location) (hlocation : location ≠ []) : FileSystem where
  kind := fun other ↦
    if other = location then some .file
    else if other.isPrefixOf location then some .directory
    else none
  root := by
    rw [if_neg hlocation.symm]
    rfl
  parent := by
    intro other name hkind
    have hbelow : other ++ [name] <+: location := by
      split_ifs at hkind with hsame hfront
      · exact hsame ▸ List.prefix_rfl
      · exact List.isPrefixOf_iff_prefix.mp hfront
      · exact absurd hkind Bool.false_ne_true
    have hother := (List.prefix_append other [name]).trans hbelow
    rw [if_neg, if_pos (List.isPrefixOf_iff_prefix.mpr hother)]
    rintro rfl
    exact absurd hbelow.length_le (by simp)

end Resolving

end Lnmp.Foundation.PosixPath
