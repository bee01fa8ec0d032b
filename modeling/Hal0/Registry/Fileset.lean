import Hal0.Core.Firsts
import Hal0.Core.Groups
import Hal0.Registry.PullNames
import Hal0.Toolloop.Patterns
import Mathlib.Algebra.Ring.Int.Defs
import Mathlib.Data.Char
import Mathlib.Data.List.Lex

/-!
# The plan of a pull

`plan_fileset` reads the file listing of a repository and plans what one pull
of a model fetches: one unit, which is a model file or a set of shards, an
`mmproj` file to go with it, and the tokenizer and config files beside it.

The tables of Unicode which the names are read with are a parameter.
-/

namespace Hal0.Registry.Fileset

open Hal0.Registry.Pulls (Name pathParts baseName Shard matchShard)
open Hal0.Toolloop (fold)

/-- What is read of a character or a text by the tables of Unicode. -/
structure Unicode where
  /-- The value of a decimal digit. -/
  digit : Char → Option Nat
  /-- `str.lower` -/
  lower : Name → Name
  /-- `str.upper` -/
  upper : Name → Name
  /-- `repr` of a `str` -/
  repr : Name → Name
  lower_nil : lower [] = []

/-- The tables as they are for ASCII. -/
def ascii : Unicode where
  digit char := if char.isDigit then some (char.toNat - '0'.toNat) else none
  lower := List.map Char.toLower
  upper := List.map Char.toUpper
  repr text := '\'' :: (text ++ ['\''])
  lower_nil := rfl

/-! ## Paths -/

/-- The root of a `PurePosixPath`; just two slashes are kept. -/
def root : Name → Name
  | '/' :: '/' :: '/' :: _ => ['/']
  | '/' :: '/' :: _ => ['/', '/']
  | '/' :: _ => ['/']
  | _ => []

/-- `_dirname`: `str(PurePosixPath(rel).parent)` -/
def dirname (rel : Name) : Name :=
  let parent := root rel ++ ['/'].intercalate (pathParts rel).dropLast
  if parent = [] then ['.'] else parent

/-- `PurePosixPath(rel).suffix` -/
def suffix (rel : Name) : Name :=
  let name := baseName rel
  let ext := (name.reverse.takeWhile (· ≠ '.')).reverse
  let stem := name.take (name.length - ext.length - 1)
  if ext = [] ∨ stem = [] ∨ '.' ∉ name then [] else '.' :: ext

/-! ## Quant labels -/

section Labels

variable (tables : Unicode)

/-- `[a-z0-9]` -/
def isLabelChar (char : Char) : Bool := (fold char).isAlphanum

/-- `i?q\d[_a-z0-9]*`, as a length. -/
def quantRun (text : Name) : Option Nat :=
  let unmarked := match text with
    | head :: rest => if fold head = 'i' then rest else text
    | [] => []
  match unmarked with
  | letter :: number :: rest =>
    if fold letter = 'q' ∧ (tables.digit number).isSome then
      some (text.length - unmarked.length + 2 +
        (rest.takeWhile fun char => char = '_' || isLabelChar char).length)
    else none
  | _ => none

/-- A literal of the pattern, as a length. -/
def literalRun (literal text : Name) : Option Nat :=
  if literal.length ≤ text.length ∧
      (text.take literal.length).map fold = literal then
    some literal.length
  else none

/--
`(i?q\d[_a-z0-9]*|bf16|f16|f32)(?![a-z0-9])`: what follows a greedy run is
never a letter or a digit.
-/
def quantAt (text : Name) : Option Name :=
  let closed (length : Nat) : Bool :=
    !((text.drop length).head?.any isLabelChar)
  ((quantRun tables text).or
    (["bf16".toList, "f16".toList, "f32".toList].findSome? fun literal =>
      (literalRun literal text).filter closed)).map text.take

/-- `_QUANT_FILENAME_RE.search`, where a character stands before the text. -/
def quantSearch : Option Char → Name → Option Name
  | _, [] => none
  | before, char :: rest =>
    (if before.any isLabelChar then none
      else quantAt tables (char :: rest)).or (quantSearch (some char) rest)

/-- `quant_from_filename` -/
def quantFromFilename (name : Name) : Option Name :=
  (quantSearch tables none name).map tables.upper

end Labels

/-! ## Classification -/

/-- A file of the repository's listing. -/
structure RawTreeEntry where
  path : Name
  size : Int
  lfsOid : Option Name
  lfsSize : Option Int
deriving DecidableEq

/-- What a file is for. -/
inductive Role where
  | model
  | shard
  | mmproj
  | tokenizer
  | config
deriving DecidableEq

def modelExtensions : List Name := [".gguf".toList, ".safetensors".toList]

def tokenizerBasenames : List Name :=
  ["tokenizer.json".toList, "tokenizer.model".toList,
    "tokenizer_config.json".toList]

def configBasenames : List Name :=
  ["config.json".toList, "generation_config.json".toList]

section Classes

variable (tables : Unicode)

/-- `role_of`, from the name and the extension. -/
def roleOf (rel : Name) : Role :=
  let name := baseName rel
  let lowered := tables.lower name
  let ext := tables.lower (suffix rel)
  if "mmproj".toList <:+: lowered then .mmproj
  else if (matchShard tables.digit name).isSome then .shard
  else if ext ∈ modelExtensions then .model
  else if lowered ∈ tokenizerBasenames then .tokenizer
  else if lowered ∈ configBasenames ∨ ext = ".jinja".toList then .config
  else .config

/-- `_entry_bytes` -/
def RawTreeEntry.bytes (entry : RawTreeEntry) : Int :=
  entry.lfsSize.getD entry.size

/-- `_MMPROJ_PRECISION_RANK` -/
def mmprojPrecisionRank : List (Name × Nat) :=
  [("F32".toList, 100), ("F16".toList, 90), ("BF16".toList, 85),
    ("Q8_0".toList, 70), ("Q6_K".toList, 60), ("Q5_K_M".toList, 55),
    ("Q5_K_S".toList, 54), ("Q5_0".toList, 50), ("Q5_1".toList, 51),
    ("Q4_K_M".toList, 45), ("Q4_K_S".toList, 44), ("Q4_0".toList, 40),
    ("Q4_1".toList, 41), ("Q3_K_M".toList, 30), ("Q3_K_S".toList, 29),
    ("Q3_K_L".toList, 31), ("Q2_K".toList, 20)]

/-- `_precision_rank` -/
def precisionRank (rel : Name) : Nat :=
  let quant := (quantFromFilename tables (baseName rel)).getD []
  (mmprojPrecisionRank.lookup (tables.upper quant)).getD 0

/-- `m.group("tot")`, which stands before the dot and the extension. -/
def totText (name : Name) (shard : Shard) : Name :=
  let line := if name.getLast? = some '\n' then name.dropLast else name
  (line.drop (line.length - (6 + shard.ext.length))).take 5

abbrev ShardKey := Name × Name × Name

/-- The group of a shard and its index in it. -/
def shardPlace (entry : RawTreeEntry) : Option (ShardKey × Nat) :=
  if roleOf tables entry.path = .shard then
    (matchShard tables.digit (baseName entry.path)).map fun shard =>
      ((dirname entry.path, shard.stem,
        totText (baseName entry.path) shard), shard.index)
  else none

/-- The listing by roles. -/
structure Classified where
  shardGroups : List (ShardKey × List (Nat × RawTreeEntry))
  modelFiles : List RawTreeEntry
  mmprojFiles : List RawTreeEntry
  tokenizerFiles : List RawTreeEntry
  configFiles : List RawTreeEntry

/-- One more file, by its role. -/
def Classified.add (sorted : Classified) (entry : RawTreeEntry) :
    Classified :=
  match roleOf tables entry.path with
  | .shard =>
    { sorted with
      shardGroups :=
        Groups.add (shardPlace tables) sorted.shardGroups entry }
  | .model => { sorted with modelFiles := sorted.modelFiles ++ [entry] }
  | .mmproj => { sorted with mmprojFiles := sorted.mmprojFiles ++ [entry] }
  | .tokenizer =>
    { sorted with tokenizerFiles := sorted.tokenizerFiles ++ [entry] }
  | .config => { sorted with configFiles := sorted.configFiles ++ [entry] }

/-- The files by their roles. -/
def classify (entries : List RawTreeEntry) : Classified :=
  entries.foldl (Classified.add tables) ⟨[], [], [], [], []⟩

end Classes

/-! ## Units -/

/-- A shard set, with the indices of its names, or a single file. -/
inductive FileUnit where
  | shards (key : ShardKey) (pick : List (Nat × RawTreeEntry))
  | single (entry : RawTreeEntry)
deriving DecidableEq

namespace FileUnit

/-- The files of the unit. -/
def entries : FileUnit → List RawTreeEntry
  | shards _ pick => pick.map Prod.snd
  | single entry => [entry]

def dirname : FileUnit → Name
  | shards key _ => key.1
  | single entry => Fileset.dirname entry.path

def isShard : FileUnit → Bool
  | shards _ _ => true
  | single _ => false

/-- The bytes of the unit. -/
def total (unit : FileUnit) : Int :=
  (unit.entries.map RawTreeEntry.bytes).sum

/-- The file that a unit is loaded by. -/
def headPath (unit : FileUnit) : Option Name :=
  unit.entries.head?.map RawTreeEntry.path

end FileUnit

/-- The units of a listing: its shard groups, then its model files. -/
def Classified.units (sorted : Classified) : List FileUnit :=
  (sorted.shardGroups.map fun group =>
    .shards group.1 (Groups.ordered group.2)) ++
      sorted.modelFiles.map .single

/-! ## Plans -/

/-- A file of the plan. -/
structure FileSetEntry where
  rel : Name
  sizeBytes : Int
  lfsSha256 : Option Name
  role : Role
  shardIndex : Option Nat
deriving DecidableEq

/-- Why a unit was chosen. -/
inductive TiebreakReason where
  | quantAffinity
  | largestPrecision
  | onlyCandidate
deriving DecidableEq

/-- What is to be downloaded. -/
structure FileSetPlan where
  repo : Name
  revision : Name
  entryRel : Name
  files : List FileSetEntry
  mmprojRel : Option Name
  totalBytes : Int
  runnerHint : Option Name
  mmprojTiebreakReason : Option TiebreakReason
deriving DecidableEq

/-- The errors, with their messages and details. -/
inductive FilesetError where
  | empty (message repo revision : Name)
  | variantNotFound (message repo revision requestedVariant : Name)
deriving DecidableEq

/-- A file of the plan which is carried as it is listed. -/
def RawTreeEntry.planned (entry : RawTreeEntry) (role : Role)
    (shardIndex : Option Nat) : FileSetEntry :=
  ⟨entry.path, entry.bytes, entry.lfsOid, role, shardIndex⟩

/-- The model files of a plan; shards are numbered by their positions. -/
def FileUnit.files (unit : FileUnit) : List FileSetEntry :=
  unit.entries.mapIdx fun position entry =>
    if unit.isShard then entry.planned .shard (some (position + 1))
    else entry.planned .model none

section Planning

variable (tables : Unicode)

/-- `_infer_runner_hint` -/
def inferRunnerHint (files : List FileSetEntry) : Option Name :=
  let exts := (files.filter fun file =>
    file.role = .model ∨ file.role = .shard).map fun file =>
      tables.lower (suffix file.rel)
  let roles := files.map FileSetEntry.role
  if ".gguf".toList ∈ exts then some "llama-server".toList
  else if ".safetensors".toList ∈ exts ∧ .tokenizer ∈ roles ∧
      .config ∈ roles then some "flm".toList
  else none

/-- `sorted(entries, key=lambda e: e.path)` -/
def sortedByPath (entries : List RawTreeEntry) : List RawTreeEntry :=
  entries.insertionSort fun first second => first.path ≤ second.path

/-- The `mmproj` file which goes with an entry, and why it does. -/
def pairMmproj (mmprojFiles : List RawTreeEntry) (chosenDir entryRel : Name) :
    Option (RawTreeEntry × TiebreakReason) :=
  let sameDir := mmprojFiles.filter fun entry =>
    dirname entry.path = chosenDir
  let candidates := if sameDir = [] then mmprojFiles else sameDir
  let entryQuant := quantFromFilename tables (baseName entryRel)
  let affinity :=
    match entryQuant with
    | none => []
    | some quant =>
      candidates.filter fun entry =>
        quant ≠ [] ∧
          quantFromFilename tables (baseName entry.path) = some quant
  if candidates = [] then none
  else if affinity = [] then
    let bestRank := (candidates.map fun entry =>
      precisionRank tables entry.path).foldr max 0
    let top := sortedByPath (candidates.filter fun entry =>
      precisionRank tables entry.path = bestRank)
    top.head?.map fun picked =>
      (picked, if 1 < candidates.length then .largestPrecision
        else .onlyCandidate)
  else (sortedByPath affinity).head?.map fun picked =>
    (picked, .quantAffinity)

/-- Whether a unit is what a variant asks for, by path or by bare name. -/
def FileUnit.answers (variant : Name) (unit : FileUnit) : Bool :=
  unit.headPath.any fun path =>
    path = variant || baseName path = baseName variant

/-- The unit which is installed. -/
def chooseUnit (units : List FileUnit) (requestedVariant : Option Name) :
    Option FileUnit :=
  match requestedVariant with
  | some (char :: rest) => units.find? (FileUnit.answers (char :: rest))
  | _ => Firsts.firstMax FileUnit.total units

/-- What is planned for the chosen unit. -/
def planUnit (sorted : Classified) (repo revision : Name) (chosen : FileUnit) :
    FileSetPlan :=
  let entryRel := chosen.headPath.getD []
  let paired := pairMmproj tables sorted.mmprojFiles chosen.dirname entryRel
  let beside (entries : List RawTreeEntry) (role : Role) :
      List FileSetEntry :=
    (entries.filter fun entry => dirname entry.path = chosen.dirname).map
      fun entry => entry.planned role none
  let files := chosen.files ++
    (paired.map fun picked => picked.1.planned .mmproj none).toList ++
      beside sorted.tokenizerFiles .tokenizer ++
        beside sorted.configFiles .config
  { repo, revision, entryRel, files
    mmprojRel := paired.map fun picked => picked.1.path
    totalBytes := (files.map FileSetEntry.sizeBytes).sum
    runnerHint := inferRunnerHint tables files
    mmprojTiebreakReason := paired.map Prod.snd }

/-- `plan_fileset` -/
def planFileset (entries : List RawTreeEntry) (repo revision : Name)
    (requestedVariant : Option Name) : Except FilesetError FileSetPlan :=
  let sorted := classify tables entries
  if sorted.units = [] then
    .error (.empty ("no model-role file found in ".toList ++
      tables.repr repo ++ '@' :: revision) repo revision)
  else
    match chooseUnit sorted.units requestedVariant with
    | none =>
      let variant := requestedVariant.getD []
      .error (.variantNotFound (tables.repr variant ++
        " not found in ".toList ++ tables.repr repo ++ '@' :: revision)
        repo revision variant)
    | some chosen => .ok (planUnit tables sorted repo revision chosen)

end Planning

end Hal0.Registry.Fileset
