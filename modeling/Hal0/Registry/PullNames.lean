import Mathlib.Data.List.Infix

/-!
# The names which a pull derives

A pull has a job snapshot, a staging file and a sidecar for each file it
fetches, a staging directory for a split model, and its install paths.  All
are made of the sanitised id of the model and of the file names.

A path is a list of names.  File names are relative and have no `..`, as the
routes ask for, so that paths with different names are different files.
-/

namespace Hal0.Registry.Pulls

abbrev Name := List Char

abbrev Path := List Name

/-! ## The sanitiser -/

/-- `[A-Za-z0-9._-]` -/
def isSafe (char : Char) : Bool :=
  char.isAlphanum || char = '.' || char = '_' || char = '-'

/-- `_SANITISE_RE.sub("-", text)`: a run of other characters is one dash. -/
def dashRuns (inRun : Bool) : Name → Name
  | [] => []
  | char :: rest =>
    if isSafe char then char :: dashRuns false rest
    else if inRun then dashRuns true rest
    else '-' :: dashRuns true rest

def isEdge (char : Char) : Bool := char = '-' || char = '.'

/-- `text.strip("-.")` -/
def stripEdges (text : Name) : Name :=
  ((text.dropWhile isEdge).reverse.dropWhile isEdge).reverse

/-- `_sanitise_id` -/
def sanitiseId (text : Name) : Name :=
  let cleaned := stripEdges (dashRuns false text)
  if cleaned = [] then "model".toList else cleaned

/-! ## File names -/

/-- The parts of a `PurePosixPath`. -/
def pathParts (text : Name) : Path :=
  (text.splitOn '/').filter fun part => part ≠ [] && part ≠ ['.']

/-- `Path(text).name` -/
def baseName (text : Name) : Name := (pathParts text).getLast?.getD []

def canonicalGgufName : Name := "model.gguf".toList

/-- `_is_gguf` -/
def isGguf (text : Name) : Bool :=
  ".gguf".toList.isSuffixOf (text.map Char.toLower)

/-- `_canonical_name` -/
def canonicalName (text : Name) : Name :=
  if isGguf text then canonicalGgufName
  else if baseName text = [] then canonicalGgufName
  else baseName text

/-- What `SHARD_RE` reads in the name of a part. -/
structure Shard where
  stem : Name
  index : Nat
  total : Nat
  ext : Name
deriving DecidableEq

/-- A letter of the pattern, with `re.IGNORECASE`. -/
def sameLetter (char letter : Char) : Bool :=
  char.toLower = letter || (letter = 's' && char = 'ſ')

/-- Equal up to the case of letters. -/
def sameText (text pattern : Name) : Bool :=
  text.length = pattern.length &&
    (text.zip pattern).all fun pair => sameLetter pair.1 pair.2

/-- `int(text)`, with the value of a decimal character. -/
def number (digit : Char → Option Nat) (text : Name) : Option Nat :=
  text.foldl
    (fun value char => do
      let value ← value
      let next ← digit char
      return 10 * value + next)
    (some 0)

/-- `<stem>-<5 digits>-of-<5 digits>.<ext>` -/
def matchShardExt (digit : Char → Option Nat) (ext name : Name) :
    Option Shard :=
  let tail := name.drop (name.length - (16 + ext.length))
  let stem := name.take (name.length - (16 + ext.length))
  if stem ≠ [] ∧ '\n' ∉ stem ∧ tail.take 1 = ['-'] ∧
      sameText ((tail.drop 6).take 4) "-of-".toList ∧
      (tail.drop 15).take 1 = ['.'] ∧ sameText (tail.drop 16) ext then do
    let index ← number digit ((tail.drop 1).take 5)
    let total ← number digit ((tail.drop 10).take 5)
    return ⟨stem, index, total, tail.drop 16⟩
  else none

/-- `SHARD_RE.match`; `$` also matches before a final newline. -/
def matchShard (digit : Char → Option Nat) (name : Name) : Option Shard :=
  let line := if name.getLast? = some '\n' then name.dropLast else name
  (matchShardExt digit "gguf".toList line).or
    (matchShardExt digit "safetensors".toList line)

/-- `f"{number:05d}"` -/
def padded (number : Nat) : Name :=
  let digits := Nat.toDigits 10 number
  List.replicate (5 - digits.length) '0' ++ digits

/-- The name of one shard. -/
def shardName (stem : Name) (index total : Nat) (ext : Name) : Name :=
  stem ++ '-' :: padded index ++ "-of-".toList ++ padded total ++ '.' :: ext

/-- `_shard_set`; `none` is a refusal of a later part. -/
def shardSet (digit : Char → Option Nat) (hfFile : Name) :
    Option (List Name) :=
  match matchShard digit (baseName hfFile) with
  | none => some []
  | some shard =>
    if shard.index ≠ 1 then none
    else some ((List.range shard.total).map fun earlier =>
      ['/'].intercalate ((pathParts hfFile).dropLast ++
        [shardName shard.stem (earlier + 1) shard.total shard.ext]))

/-- `final.stem` and `final.suffix.lstrip(".")` -/
def stemAndExt (name : Name) : Name × Name :=
  let ext := (name.reverse.takeWhile (· ≠ '.')).reverse
  let stem := name.take (name.length - ext.length - 1)
  if ext = [] ∨ stem = [] ∨ '.' ∉ name then (name, []) else (stem, ext)

/-- The names of `_shard_dests`. -/
def shardDests (digit : Char → Option Nat) (name : Name) (total : Nat) :
    List Name :=
  let (stem, ext) :=
    match matchShard digit name with
    | some shard => (shard.stem, shard.ext)
    | none => stemAndExt name
  (List.range total).map fun earlier => shardName stem (earlier + 1) total ext

/-! ## Requests -/

/-- Where the pulls keep their files. -/
structure Layout where
  root : Path
  jobs : Path
  digit : Char → Option Nat

/-- The arguments of a pull; a text which is not given is `none`. -/
structure Request where
  modelId : Name
  hfRepo : Name
  hfFile : Name
  capability : Option Name
  mmprojFile : Option Name
  draftFile : Option Name
  draftRepo : Option Name
  destOverride : Option Path
  extraFiles : List Name
deriving DecidableEq

/-- The places of a pull's files. -/
inductive FileSlot where
  | model (index : Nat)
  | mmproj
  | draft
  | sidecar (index : Nat)
deriving DecidableEq

namespace Request

variable (layout : Layout) (request : Request)

/-- `_tmp_dir` -/
def tmpDir (layout : Layout) : Path := layout.root ++ [".tmp".toList]

/-- What the staged files are named by. -/
def stagingStem (file : Name) : Name :=
  sanitiseId request.modelId ++ "--".toList ++ sanitiseId file

/-- The first of `_staging_paths`. -/
def stagingPart (file : Name) : Path :=
  tmpDir layout ++ [request.stagingStem file ++ ".part".toList]

/-- The second of `_staging_paths`. -/
def stagingSidecar (file : Name) : Path :=
  tmpDir layout ++ [request.stagingStem file ++ ".part.json".toList]

/-- `_split_staging_dir` -/
def splitStagingDir : Path :=
  tmpDir layout ++ [sanitiseId request.modelId ++ "--parts".toList]

/-- `pull_job_file` -/
def pullJobFile : Path :=
  layout.jobs ++ [sanitiseId request.modelId ++ ".json".toList]

/-- `_final_path` -/
def finalPath (filename : Name) : Path :=
  layout.root ++ sanitiseId request.modelId :: pathParts filename

/-- `_final_path_for_entry` -/
def finalPathForEntry (filename : Name) : Path :=
  match request.capability with
  | some capability =>
    layout.root ++ [sanitiseId capability, sanitiseId request.modelId,
      canonicalName filename]
  | none => request.finalPath layout filename

/-- Where the main file goes. -/
def mainFinal : Path :=
  match request.destOverride with
  | some dest =>
    if dest.getLast? = some canonicalGgufName ∧ ¬ isGguf request.hfFile then
      dest.dropLast ++ [canonicalName request.hfFile]
    else dest
  | none => request.finalPathForEntry layout request.hfFile

/-- Where the installed files stand. -/
def directory : Path := (request.mainFinal layout).dropLast

def shards : List Name := (shardSet layout.digit request.hfFile).getD []

def isSplit : Bool := request.shards layout ≠ []

/-- The model's files, its shards where it is split. -/
def models : List Name :=
  if request.isSplit layout then request.shards layout else [request.hfFile]

/-- The names under which these are installed. -/
def modelNames : List Name :=
  let name := (request.mainFinal layout).getLast?.getD []
  if request.isSplit layout then
    shardDests layout.digit name (request.shards layout).length
  else [name]

def mainName : Name := (request.modelNames layout).head?.getD []

/-- The file of the repository. -/
def fileOf : FileSlot → Option Name
  | .model index => (request.models layout)[index]?
  | .mmproj => request.mmprojFile
  | .draft => request.draftFile
  | .sidecar index => request.extraFiles[index]?

/-- The name under which it is installed. -/
def installName : FileSlot → Option Name
  | .model index => (request.modelNames layout)[index]?
  | .mmproj => request.mmprojFile.map baseName
  | .draft => request.draftFile.map baseName
  | .sidecar index => request.extraFiles[index]?.map baseName

/-- `_remove_mislabeled_canonical` looks at the directory. -/
def looksForMislabeled : Bool :=
  !isGguf request.hfFile && request.mainName layout ≠ canonicalGgufName

def metaName : Name := "meta.json".toList

/-- The name is used in the install directory. -/
def UsesName (name : Name) : Prop :=
  (∃ slot, request.installName layout slot = some name) ∨
  (request.looksForMislabeled layout = true ∧
    (name = canonicalGgufName ∨ name = metaName)) ∨
  (request.capability.isSome = true ∧ name = metaName)

/-- The paths which the pull uses. -/
def Owns (path : Path) : Prop :=
  path = request.pullJobFile layout ∨
  (∃ slot file, request.fileOf layout slot = some file ∧
    (path = request.stagingPart layout file ∨
      path = request.stagingSidecar layout file)) ∨
  request.splitStagingDir layout <+: path ∨
  ∃ name, request.UsesName layout name ∧
    path = request.directory layout ++ [name]

end Request

end Hal0.Registry.Pulls
