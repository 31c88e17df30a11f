import Lnmp.Foundation.PosixPath

/-!
# Assets of PDF reports

`secure_url_fetcher` (`services/pdf_engine.py`) hands inline data to the fetcher of WeasyPrint,
refuses URLs of the network, and hands over a local path when its normal form starts with that of an
allowed directory and exists. The fetcher takes the path of the URL that it is given up to a
question mark or a hash, unquotes it and opens it.

The start is compared as text, so that `reports-old` passes for `reports`, and what is unquoted is
not what was compared. `forall_openedLocation_iff` says for which URLs nothing outside of the
allowed directories is opened, whatever is in the file system.
-/

set_option autoImplicit false
set_option relaxedAutoImplicit false

namespace Lnmp.Reports

open Lnmp.Foundation.IpAddress Lnmp.Foundation.PercentText Lnmp.Foundation.Url
open Lnmp.Foundation.PosixPath Lnmp.Foundation.PythonText

/-! ### URLs -/

/-- A character that `urlsplit` strips from the left: a control character or a space. -/
def isC0OrSpace (char : Char) : Bool := char.toNat ≤ 0x20

/-- `scheme_chars`. -/
def isSchemeChar (char : Char) : Bool := char.isAlphanum || char ∈ ['+', '-', '.']

/-- The scheme of a URL, and what stands behind it. -/
def splitScheme (url : List Char) : List Char × List Char :=
  let text := keptText (url.dropWhile isC0OrSpace)
  let scheme := (cut ':' text).1
  if ':' ∈ text ∧ scheme.head?.any Char.isAlpha ∧ scheme.all isSchemeChar then
    (scheme.map Char.toLower, (cut ':' text).2)
  else ([], text)

/-- A text up to the query and the fragment. -/
def withoutQuery (text : List Char) : List Char := text.takeWhile fun char ↦ char ∉ ['?', '#']

/-- `urlparse`: the scheme and the path of a URL, or `none` when it raises an error. -/
def schemeAndPath (nfkc : List Char → List Char) (url : List Char) :
    Option (List Char × List Char) :=
  let scheme := (splitScheme url).1
  let rest := (splitScheme url).2
  if ['/', '/'] <+: rest then
    let netloc := (rest.drop 2).takeWhile fun char ↦ !isDelimiter char
    if checkNetloc nfkc netloc then some (scheme, withoutQuery (urlTail (rest.drop 2))) else none
  else some (scheme, withoutQuery rest)

/-! ### The fetcher -/

/-- What the fetcher depends on: the normalization of Unicode, the working directory and the
directory of the module. -/
structure PdfSite where
  nfkc : List Char → List Char
  cwd : List Char
  absolute : cwd.head? = some '/'
  moduleDir : List Char

/-- `ALLOWED_ASSET_DIRS`. -/
def PdfSite.allowedAssetDirs (site : PdfSite) : List (List Char) :=
  [["..", "templates", "reports"], ["..", "..", "..", "frontend", "src", "assets"]].map fun parts ↦
    abspath site.cwd ((parts.map String.toList).foldl joinPaths site.moduleDir)

/-- Why nothing is fetched. -/
inductive FetchError
  | emptyUrl
  | invalidUrl
  | externalAccess (scheme : List Char)
  | accessDenied (localPath : List Char)
  deriving DecidableEq

/-- The text of the error; that of an invalid URL is up to `urlparse`. -/
def FetchError.text (invalid : List Char) : FetchError → List Char
  | .emptyUrl => "Empty URL cannot be fetched.".toList
  | .invalidUrl => invalid
  | .externalAccess scheme =>
    "External network access is prohibited during report compilation: ".toList ++ scheme ++
      "://".toList
  | .accessDenied localPath =>
    "Access to file path '".toList ++ localPath ++
      "' is denied: not within authorized asset roots.".toList

/-- `secure_url_fetcher`: the URL that it hands to the base fetcher. -/
def secureUrlFetcher (site : PdfSite) (fs : FileSystem) (url : List Char) :
    Except FetchError (List Char) :=
  if url = [] then .error .emptyUrl
  else
    match schemeAndPath site.nfkc url with
    | none => .error .invalidUrl
    | some (scheme, path) =>
      if scheme = "data".toList then .ok url
      else if scheme ∈ ["http".toList, "https".toList, "ftp".toList] then
        .error (.externalAccess scheme)
      else
        let localPath := if scheme = "file".toList then path else url
        let absPath := abspath site.cwd localPath
        let isAllowed := site.allowedAssetDirs.any fun allowedDir ↦ allowedDir.isPrefixOf absPath
        if isAllowed && (fs.resolve absPath).isSome then .ok ("file://".toList ++ absPath)
        else .error (.accessDenied localPath)

/-- The path of a file URL: what stands behind its authority, up to the query and the fragment. -/
def fileUrlPath? (url : List Char) : Option (List Char) :=
  if (url.take 7).map Char.toLower = "file://".toList then
    some (withoutQuery (urlTail (url.drop 7)))
  else none

/-- What the base fetcher opens: where the unquoted path of a file URL leads. -/
def openedLocation (site : PdfSite) (fs : FileSystem) (url : List Char) : Option Location :=
  match secureUrlFetcher site fs url with
  | .ok fetched => (fileUrlPath? fetched).bind fun path ↦ fs.resolve (unquote path)
  | .error _ => none

/-! ### Confinement -/

/-- The location is an allowed directory or lies below one. -/
def PdfSite.IsAsset (site : PdfSite) (location : Location) : Prop :=
  ∃ allowedDir ∈ site.allowedAssetDirs, locationOf allowedDir <+: location

/-- The local path that a URL stands for. -/
def PdfSite.localPath? (site : PdfSite) (url : List Char) : Option (List Char) :=
  (schemeAndPath site.nfkc url).bind fun parsed ↦
    if url = [] ∨ parsed.1 ∈ ["data".toList, "http".toList, "https".toList, "ftp".toList] then none
    else some (if parsed.1 = "file".toList then parsed.2 else url)

/-- Where the normal form of the path starts with the text of an allowed directory, the path that is
unquoted names an asset. -/
def PdfSite.StaysInside (site : PdfSite) (url : List Char) : Prop :=
  ∀ path ∈ site.localPath? url,
    (∃ allowedDir ∈ site.allowedAssetDirs, allowedDir <+: abspath site.cwd path) →
    nul ∉ abspath site.cwd path → nul ∉ unquote (withoutQuery (abspath site.cwd path)) →
    site.IsAsset (locationOf (unquote (withoutQuery (abspath site.cwd path))))

section Confinement

variable {site : PdfSite} {fs : FileSystem} {url fetched : List Char}

theorem schemeAndPath_fst {nfkc : List Char → List Char} {parsed : List Char × List Char}
    (hparsed : schemeAndPath nfkc url = some parsed) : (splitScheme url).1 = parsed.1 := by
  rw [schemeAndPath] at hparsed
  dsimp only at hparsed
  split_ifs at hparsed
  · rw [← Option.some.inj hparsed]
  · rw [← Option.some.inj hparsed]

/-- The local path of a URL of some other scheme. -/
theorem localPath?_eq_some_iff {path : List Char} :
    site.localPath? url = some path ↔
      ∃ parsed, schemeAndPath site.nfkc url = some parsed ∧ url ≠ [] ∧
        parsed.1 ∉ ["data".toList, "http".toList, "https".toList, "ftp".toList] ∧
        (if parsed.1 = "file".toList then parsed.2 else url) = path := by
  rw [PdfSite.localPath?, Option.bind_eq_some_iff]
  refine exists_congr fun parsed ↦ and_congr_right fun _ ↦ ?_
  rw [Option.ite_none_left_eq_some, not_or, Option.some_inj, and_assoc]

/-- What is handed over is inline data or a path. -/
theorem secureUrlFetcher_eq_ok (hfetch : secureUrlFetcher site fs url = .ok fetched) :
    (fetched = url ∧ (splitScheme url).1 = "data".toList) ∨
      ∃ path ∈ site.localPath? url,
        (∃ allowedDir ∈ site.allowedAssetDirs, allowedDir <+: abspath site.cwd path) ∧
        (fs.resolve (abspath site.cwd path)).isSome = true ∧
        fetched = "file://".toList ++ abspath site.cwd path := by
  rw [secureUrlFetcher] at hfetch
  split_ifs at hfetch with hurl
  rcases hparsed : schemeAndPath site.nfkc url with _ | ⟨scheme, parsedPath⟩
  · rw [hparsed] at hfetch
    exact absurd hfetch nofun
  · rw [hparsed] at hfetch
    dsimp only at hfetch
    by_cases hdata : scheme = "data".toList
    · rw [if_pos hdata] at hfetch
      exact Or.inl ⟨(Except.ok.inj hfetch).symm, schemeAndPath_fst hparsed ▸ hdata⟩
    · by_cases hexternal : scheme ∈ ["http".toList, "https".toList, "ftp".toList]
      · rw [if_neg hdata, if_pos hexternal] at hfetch
        exact absurd hfetch nofun
      · rw [if_neg hdata, if_neg hexternal] at hfetch
        have hpath : site.localPath? url =
            some (if scheme = "file".toList then parsedPath else url) :=
          localPath?_eq_some_iff.mpr ⟨_, hparsed, hurl,
            fun hmem ↦ (List.mem_cons.mp hmem).elim hdata hexternal, rfl⟩
        generalize (if scheme = "file".toList then parsedPath else url) = localPath at hfetch hpath
        split_ifs at hfetch with hpass
        obtain ⟨hany, hexists⟩ := Bool.and_eq_true_iff.mp hpass
        exact Or.inr ⟨localPath, hpath, by simpa using hany, hexists, (Except.ok.inj hfetch).symm⟩

/-- A local path is handed over when it passes both checks. -/
theorem secureUrlFetcher_of_localPath? {path : List Char} (hpath : site.localPath? url = some path)
    (hallowed : ∃ allowedDir ∈ site.allowedAssetDirs, allowedDir <+: abspath site.cwd path)
    (hexists : (fs.resolve (abspath site.cwd path)).isSome = true) :
    secureUrlFetcher site fs url = .ok ("file://".toList ++ abspath site.cwd path) := by
  obtain ⟨⟨scheme, parsedPath⟩, hparsed, hurl, hscheme, rfl⟩ := localPath?_eq_some_iff.mp hpath
  have hany : (site.allowedAssetDirs.any fun allowedDir ↦ allowedDir.isPrefixOf
      (abspath site.cwd (if scheme = "file".toList then parsedPath else url))) = true := by
    simpa using hallowed
  rw [List.mem_cons, not_or] at hscheme
  rw [secureUrlFetcher, if_neg hurl, hparsed]
  dsimp only at hexists hany ⊢
  rw [if_neg hscheme.1, if_neg hscheme.2, hany, hexists]
  rfl

/-- Inline data is no file URL, also before characters are stripped and removed from it. -/
theorem fileUrlPath?_of_data (hscheme : (splitScheme url).1 = "data".toList) :
    fileUrlPath? url = none := by
  rw [fileUrlPath?, if_neg]
  intro hfile
  cases url with
  | nil => exact absurd hfile (by decide)
  | cons char rest =>
    -- The first character is a letter, so that it is kept and starts the scheme.
    have hletter : char.toLower = 'f' := (List.cons.inj hfile).1
    have hlarge : 0x40 < char.toNat := by
      by_contra hsmall
      rw [toLower_eq_self_of_le (not_lt.mp hsmall)] at hletter
      subst hletter
      exact hsmall (by decide)
    have hstripped : isC0OrSpace char = false := decide_eq_false (by omega)
    have hkept : isRemoved char = false := by
      rw [isRemoved]
      simp only [Bool.or_eq_false_iff, decide_eq_false_iff_not]
      refine ⟨⟨?_, ?_⟩, ?_⟩ <;> (rintro rfl; exact absurd hlarge (by decide))
    have hcolon : char ≠ ':' := by
      rintro rfl
      exact absurd hlarge (by decide)
    have hcut : ∀ others, (cut ':' (char :: others)).1 = char :: (cut ':' others).1 := by
      intro others
      simp [cut, hcolon]
    rw [splitScheme, List.dropWhile_cons_of_neg (by rw [hstripped]; exact Bool.false_ne_true),
      keptText, List.filter_cons_of_pos (by rw [hkept]; rfl)] at hscheme
    rw [hcut] at hscheme
    split_ifs at hscheme
    · rw [List.map_cons, hletter] at hscheme
      exact absurd (List.cons.inj hscheme).1 (by decide)
    · exact absurd hscheme (List.cons_ne_nil _ _).symm

/-- The path of the URL that is handed over is the normal form, without what looks like a query. -/
theorem fileUrlPath?_append {path : List Char} (hpath : path.head? = some '/') :
    fileUrlPath? ("file://".toList ++ path) = some (withoutQuery path) := by
  obtain ⟨rest, rfl⟩ : ∃ rest, path = '/' :: rest := by
    cases path with
    | nil => exact absurd hpath (by decide)
    | cons char rest => exact ⟨rest, by rw [Option.some.inj hpath]⟩
  rfl

/-- Something is opened when both checks pass and the unquoted path leads to it. -/
theorem openedLocation_eq_some_iff {location : Location} :
    openedLocation site fs url = some location ↔
      ∃ path ∈ site.localPath? url,
        (∃ allowedDir ∈ site.allowedAssetDirs, allowedDir <+: abspath site.cwd path) ∧
        (fs.resolve (abspath site.cwd path)).isSome = true ∧
        fs.resolve (unquote (withoutQuery (abspath site.cwd path))) = some location := by
  have hpassed : ∀ path, (fileUrlPath? ("file://".toList ++ abspath site.cwd path)).bind
      (fun path ↦ fs.resolve (unquote path)) =
        fs.resolve (unquote (withoutQuery (abspath site.cwd path))) := fun path ↦ by
    rw [fileUrlPath?_append (head?_abspath site.absolute), Option.bind_some]
  constructor
  · intro hopened
    rw [openedLocation] at hopened
    cases hfetch : secureUrlFetcher site fs url with
    | error reason =>
      rw [hfetch] at hopened
      exact absurd hopened nofun
    | ok fetched =>
      rw [hfetch] at hopened
      dsimp only at hopened
      rcases secureUrlFetcher_eq_ok hfetch with ⟨rfl, hdata⟩ | ⟨path, hpath, hallowed, hexists, rfl⟩
      · rw [fileUrlPath?_of_data hdata] at hopened
        exact absurd hopened nofun
      · exact ⟨path, hpath, hallowed, hexists, (hpassed path).symm.trans hopened⟩
  · rintro ⟨path, hpath, hallowed, hexists, hopened⟩
    rw [openedLocation, secureUrlFetcher_of_localPath? hpath hallowed hexists]
    exact (hpassed path).trans hopened

/-- Whatever is in the file system, what is opened is an asset exactly when the URL stays inside. -/
theorem forall_openedLocation_iff (site : PdfSite) (url : List Char) :
    (∀ fs location, openedLocation site fs url = some location → site.IsAsset location) ↔
      site.StaysInside url := by
  constructor
  · intro hall path hpath hallowed hnul hdecoded
    refine hall FileSystem.everywhere _ (openedLocation_eq_some_iff.mpr
      ⟨path, hpath, hallowed, ?_, FileSystem.resolve_everywhere hdecoded⟩)
    rw [FileSystem.resolve_everywhere hnul]
    rfl
  · intro hinside fs location hopened
    obtain ⟨path, hpath, hallowed, hexists, hresolve⟩ := openedLocation_eq_some_iff.mp hopened
    rw [FileSystem.resolve_eq_some hresolve]
    exact hinside path hpath hallowed (FileSystem.not_mem_of_isSome hexists)
      (FileSystem.not_mem_of_isSome (Option.isSome_of_eq_some hresolve))

/-- The allowed directories are absolute paths, and none is the root. -/
theorem exists_of_mem_allowedAssetDirs {allowedDir : List Char}
    (hallowed : allowedDir ∈ site.allowedAssetDirs) :
    ∃ path, allowedDir = abspath site.cwd path ∧ locationOf (abspath site.cwd path) ≠ [] := by
  have hname : ∀ name, name = "reports".toList ∨ name = "assets".toList → IsName name := by
    rintro name (rfl | rfl)
    · exact ⟨by decide, by decide, by decide, by decide⟩
    · exact ⟨by decide, by decide, by decide, by decide⟩
  rw [PdfSite.allowedAssetDirs, List.map_cons, List.map_singleton, List.mem_pair] at hallowed
  rcases hallowed with rfl | rfl
  · exact ⟨_, rfl, locationOf_abspath_ne_nil site.absolute (hname _ (Or.inl rfl)) _⟩
  · exact ⟨_, rfl, locationOf_abspath_ne_nil site.absolute (hname _ (Or.inr rfl)) _⟩

/-- Without escapes, queries and fragments a URL stays inside when the text of an allowed directory
is followed by a slash or by nothing. -/
theorem staysInside_iff_of_plain {path : List Char} (hpath : site.localPath? url = some path)
    (hplain : ∀ mark ∈ ['%', '?', '#', nul], mark ∉ abspath site.cwd path)
    (hslashes : ∀ allowedDir ∈ site.allowedAssetDirs,
      initialSlashes allowedDir = initialSlashes (abspath site.cwd path)) :
    site.StaysInside url ↔
      ((∃ allowedDir ∈ site.allowedAssetDirs, allowedDir <+: abspath site.cwd path) →
        ∃ allowedDir ∈ site.allowedAssetDirs, abspath site.cwd path = allowedDir ∨
          allowedDir ++ ['/'] <+: abspath site.cwd path) := by
  have hquery : withoutQuery (abspath site.cwd path) = abspath site.cwd path := by
    refine List.takeWhile_eq_self_iff.mpr fun char hchar ↦ decide_eq_true fun hmark ↦ ?_
    refine hplain char ?_ hchar
    rw [List.mem_pair] at hmark
    rcases hmark with rfl | rfl
    · decide
    · decide
  have hescape : hasEscape (abspath site.cwd path) = false :=
    not_hasEscape_of_not_mem (hplain '%' (by decide))
  have hnul := hplain nul (by decide)
  have hbelow : site.IsAsset (locationOf (abspath site.cwd path)) ↔
      ∃ allowedDir ∈ site.allowedAssetDirs, abspath site.cwd path = allowedDir ∨
        allowedDir ++ ['/'] <+: abspath site.cwd path := by
    refine exists_congr fun allowedDir ↦ and_congr_right fun hallowed ↦ ?_
    have hsame := hslashes allowedDir hallowed
    obtain ⟨dir, rfl, hne⟩ := exists_of_mem_allowedAssetDirs hallowed
    exact locationOf_abspath_isPrefix_iff site.absolute hsame hne
  rw [← hbelow, PdfSite.StaysInside, hpath]
  simp [hquery, unquote_of_not_hasEscape hescape, hnul]

end Confinement

/-! ### A sibling of the templates -/

/-- The service in its directory. -/
def appSite : PdfSite where
  nfkc := id
  cwd := "/app".toList
  absolute := rfl
  moduleDir := "/app/backend/app/services".toList

/-- A file next to the templates. -/
def siblingFile : Location :=
  ["app", "backend", "app", "templates", "reports-old", "draft.html"].map String.toList

/-- A directory whose name starts like that of the templates is not refused. -/
theorem openedLocation_siblingFile :
    openedLocation appSite (FileSystem.onlyFile siblingFile (List.cons_ne_nil _ _))
        "file:///app/backend/app/templates/reports-old/draft.html".toList = some siblingFile ∧
      ¬ appSite.IsAsset siblingFile := by
  refine ⟨by decide, ?_⟩
  rw [PdfSite.IsAsset]
  decide

end Lnmp.Reports
