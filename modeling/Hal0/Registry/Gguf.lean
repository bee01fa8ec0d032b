import Hal0.Core.Cursors
import Hal0.Core.Tables
import Mathlib.Algebra.Ring.Int.Defs

/-!
# The header of a GGUF file

The registry reads the metadata of a model from the first bytes of its file:
a magic number, a version, two counts, and then key/value pairs.  Values of
keys nobody asks for are passed without being read.  A window which ends too
soon keeps what has been read until then.

A window is the bytes which the cursor may read; its limit is their number.
How deep arrays may nest before the interpreter runs out of stack is a
parameter, `levels`.
-/

namespace Hal0.Registry.Gguf

open Hal0.Cursors
open Hal0.Json (Table)

/-! ## Texts -/

/-- The bytes which a character still needs. -/
structure Owed where
  more : Nat
  low : Nat
  high : Nat
  code : Nat

/-- What the first byte of a longer character promises. -/
def lead (byte : Nat) : Option Owed :=
  if 0xC2 ≤ byte ∧ byte ≤ 0xDF then some ⟨0, 0x80, 0xBF, byte - 0xC0⟩
  else if byte = 0xE0 then some ⟨1, 0xA0, 0xBF, 0⟩
  else if byte = 0xED then some ⟨1, 0x80, 0x9F, 0xD⟩
  else if 0xE1 ≤ byte ∧ byte ≤ 0xEF then
    some ⟨1, 0x80, 0xBF, byte - 0xE0⟩
  else if byte = 0xF0 then some ⟨2, 0x90, 0xBF, 0⟩
  else if 0xF1 ≤ byte ∧ byte ≤ 0xF3 then
    some ⟨2, 0x80, 0xBF, byte - 0xF0⟩
  else if byte = 0xF4 then some ⟨2, 0x80, 0x8F, 4⟩
  else none

/--
`decode("utf-8", errors="replace")`: a sequence which goes no further, or
which the bytes end in, is one replacement character.
-/
def decodeFrom : Option Owed → Bytes → List Char
  | none, [] => []
  | some _, [] => ['\uFFFD']
  | none, byte :: rest =>
    if byte.toNat < 0x80 then
      Char.ofNat byte.toNat :: decodeFrom none rest
    else
      match lead byte.toNat with
      | some owed => decodeFrom (some owed) rest
      | none => '\uFFFD' :: decodeFrom none rest
  | some owed, byte :: rest =>
    if owed.low ≤ byte.toNat ∧ byte.toNat ≤ owed.high then
      let code := owed.code * 0x40 + (byte.toNat - 0x80)
      match owed.more with
      | 0 => Char.ofNat code :: decodeFrom none rest
      | more + 1 => decodeFrom (some ⟨more, 0x80, 0xBF, code⟩) rest
    else
      '\uFFFD' ::
        if byte.toNat < 0x80 then
          Char.ofNat byte.toNat :: decodeFrom none rest
        else
          match lead byte.toNat with
          | some owed => decodeFrom (some owed) rest
          | none => '\uFFFD' :: decodeFrom none rest

/-- The text, with what is no UTF-8 replaced. -/
def decode (raw : Bytes) : String :=
  String.ofList (decodeFrom none raw)

example : decode [0x61, 0xE2, 0x82, 0x41] = "a\uFFFDA" := by decide

/-! ## Values -/

/-- What is read of a value; a float is given by its bytes. -/
inductive Value where
  | int (value : Int)
  | bool (value : Bool)
  | float (raw : Bytes)
  | str (text : String)
  | list (values : List Value)

mutual

def Value.decEq : (left right : Value) → Decidable (left = right)
  | .int left, .int right =>
    decidable_of_iff (left = right) (by simp)
  | .bool left, .bool right =>
    decidable_of_iff (left = right) (by simp)
  | .float left, .float right =>
    decidable_of_iff (left = right) (by simp)
  | .str left, .str right =>
    decidable_of_iff (left = right) (by simp)
  | .list left, .list right =>
    match Value.decEqList left right with
    | .isTrue same => .isTrue (by rw [same])
    | .isFalse differ => .isFalse (by simpa using differ)
  | .int _, .bool _ | .int _, .float _ | .int _, .str _ | .int _, .list _
  | .bool _, .int _ | .bool _, .float _ | .bool _, .str _ | .bool _, .list _
  | .float _, .int _ | .float _, .bool _ | .float _, .str _
  | .float _, .list _
  | .str _, .int _ | .str _, .bool _ | .str _, .float _ | .str _, .list _
  | .list _, .int _ | .list _, .bool _ | .list _, .float _ | .list _, .str _ =>
    .isFalse (by simp)

def Value.decEqList : (left right : List Value) → Decidable (left = right)
  | [], [] => .isTrue rfl
  | [], _ :: _ | _ :: _, [] => .isFalse (by simp)
  | first :: rest, other :: others =>
    match Value.decEq first other, Value.decEqList rest others with
    | .isTrue same, .isTrue alike => .isTrue (by rw [same, alike])
    | .isFalse differ, _ => .isFalse (by simp [differ])
    | _, .isFalse differ => .isFalse (by simp [differ])

end

instance : DecidableEq Value := Value.decEq

/-- How a read of the header fails. -/
inductive Failure where
  | malformed
  | recursion
deriving DecidableEq

/-- The formats of `struct` for scalars. -/
inductive Scalar where
  | unsigned
  | signed
  | floating
deriving DecidableEq

/-- A scalar format of `struct`. -/
structure Format where
  scalar : Scalar
  size : Nat
deriving DecidableEq

def typeBool : Nat := 7

def typeString : Nat := 8

def typeArray : Nat := 9

/-- `_SCALAR_FORMATS` -/
def scalarFormats : Nat → Option Format
  | 0 => some ⟨.unsigned, 1⟩
  | 1 => some ⟨.signed, 1⟩
  | 2 => some ⟨.unsigned, 2⟩
  | 3 => some ⟨.signed, 2⟩
  | 4 => some ⟨.unsigned, 4⟩
  | 5 => some ⟨.signed, 4⟩
  | 6 => some ⟨.floating, 4⟩
  | 7 => some ⟨.unsigned, 1⟩
  | 10 => some ⟨.unsigned, 8⟩
  | 11 => some ⟨.signed, 8⟩
  | 12 => some ⟨.floating, 8⟩
  | _ => none

def littleEndian (raw : Bytes) : Nat :=
  raw.foldr (fun byte value => byte.toNat + 256 * value) 0

/-- `struct.unpack` -/
def Format.unpack (format : Format) (raw : Bytes) : Value :=
  match format.scalar with
  | .unsigned => .int (littleEndian raw)
  | .signed =>
    if littleEndian raw < 2 ^ (8 * format.size - 1) then
      .int (littleEndian raw)
    else
      .int (littleEndian raw - 2 ^ (8 * format.size))
  | .floating => .float raw

def scalarValue (vtype : Nat) (format : Format) (raw : Bytes) : Value :=
  if vtype = typeBool then .bool (littleEndian raw ≠ 0)
  else format.unpack raw

/-! ## The reader -/

def u32 : Reading Failure Nat :=
  map littleEndian (take .malformed 4)

def u64 : Reading Failure Nat :=
  map littleEndian (take .malformed 8)

/-- A text with its length in front. -/
def ggufString : Reading Failure String :=
  bind u64 fun length =>
    within .malformed length (map decode (take .malformed length))

/-- `_read_value`, but for how an array is read. -/
def readScalar (vtype : Nat) (array : Reading Failure Value) :
    Reading Failure Value :=
  match scalarFormats vtype with
  | some format =>
    map (scalarValue vtype format) (take .malformed format.size)
  | none =>
    if vtype = typeString then map Value.str ggufString
    else if vtype = typeArray then array
    else fail .malformed

/-- `_read_value` -/
def readValue : Nat → Nat → Reading Failure Value
  | 0, vtype => readScalar vtype (fail .recursion)
  | levels + 1, vtype =>
    readScalar vtype
      (bind u32 fun elemType =>
        bind u64 fun length =>
          map Value.list (times (readValue levels elemType) length))

/-- `_skip_value`, but for how an array is passed. -/
def skipScalar (vtype : Nat) (array : Reading Failure Unit) :
    Reading Failure Unit :=
  match scalarFormats vtype with
  | some format => skip .malformed format.size
  | none =>
    if vtype = typeString then
      bind u64 fun length =>
        within .malformed length (skip .malformed length)
    else if vtype = typeArray then array
    else fail .malformed

/-- `_skip_value`: scalars of an array are passed in one step. -/
def skipValue : Nat → Nat → Reading Failure Unit
  | 0, vtype => skipScalar vtype (fail .recursion)
  | levels + 1, vtype =>
    skipScalar vtype
      (bind u32 fun elemType =>
        bind u64 fun length =>
          match scalarFormats elemType with
          | some format => skip .malformed (format.size * length)
          | none => repeatedly (skipValue levels elemType) length)

/-! ## Keys -/

/-- `_INTERESTING_KEYS_STATIC` -/
def interestingKeysStatic : List String :=
  ["general.architecture", "general.embedding_length", "general.name",
    "general.basename", "general.size_label", "general.file_type",
    "general.tags", "dflash.embedding_length", "dflash.block_size",
    "dflash.target_layers", "dflash.selector_top_k",
    "eagle3.target_hidden_size", "eagle3.target_layers",
    "lilicorr.candidate_topk", "tokenizer.ggml.model",
    "tokenizer.ggml.bos_token_id", "tokenizer.ggml.eos_token_id",
    "general.base_model.0.name", "general.base_model.0.repo_url"]

/-- `_ARCH_KEY_SUFFIXES` -/
def archKeySuffixes : List String :=
  ["context_length", "pooling_type", "attention.causal", "block_count",
    "vocab_size", "nextn_predict_layers", "embedding_length"]

/-- `f"{arch}.{suffix}"` -/
def archKey (arch suffix : String) : String :=
  arch ++ "." ++ suffix

/-- `key.endswith(f".{suffix}")` -/
def endsWith (key suffix : String) : Bool :=
  ("." ++ suffix).toList.isSuffixOf key.toList

/-- `_is_arch_key` -/
def isArchKey (key : String) (arch : Option String) : Bool :=
  match arch with
  | some arch => archKeySuffixes.any fun suffix => key = archKey arch suffix
  | none => archKeySuffixes.any fun suffix => endsWith key suffix

/-- The key is one of interest. -/
def collects (key : String) (arch : Option String) : Bool :=
  decide (key ∈ interestingKeysStatic) || isArchKey key arch

/-! ## The key/value block -/

/-- What is collected, and the architecture. -/
structure Scan where
  out : Table Value
  arch : Option String

/-- `arch`, after a value which has been read. -/
def archAfter (key : String) (value : Value) (arch : Option String) :
    Option String :=
  match value with
  | .str text => if key = "general.architecture" then some text else arch
  | _ => arch

/-- One more pair. -/
def Scan.collect (scan : Scan) (key : String) (value : Value) : Scan where
  out := scan.out.put key value
  arch := archAfter key value scan.arch

/-- One key and its value. -/
def Scan.pair (levels : Nat) (scan : Scan) : Reading Failure Scan :=
  bind ggufString fun key =>
    bind u32 fun vtype =>
      if collects key scan.arch then
        map (scan.collect key) (readValue levels vtype)
      else
        map (fun _ => scan) (skipValue levels vtype)

/--
The loop over the pairs.  It ends where the bytes do, with what it has; the
position is that after the block, when it is complete.
-/
def Scan.pairs (levels : Nat) (window : Bytes) :
    Nat → Scan → Nat → Except Failure (Scan × Option Nat)
  | 0, scan, pos => .ok (scan, some pos)
  | count + 1, scan, pos =>
    match scan.pair levels window pos with
    | .error .malformed => .ok (scan, none)
    | .error .recursion => .error .recursion
    | .ok (scan, after) => Scan.pairs levels window count scan after

/-! ## Tensor names -/

/-- `_TENSOR_NAME_PREFIX_COUNT` -/
def tensorNamePrefixCount : Nat := 64

/-- One entry of the tensor block. -/
def tensorName : Reading Failure String :=
  bind ggufString fun name =>
    bind u32 fun dims =>
      if 8 < dims then fail .malformed
      else map (fun _ => name) (skip .malformed (8 * dims + 4 + 8))

/-- `_read_tensor_names` -/
def readTensorNames (window : Bytes) (pos count : Nat) :
    Option (List String) :=
  match times tensorName count window pos with
  | .ok (names, _) => some names
  | .error _ => none

/-! ## The header -/

/-- The suffixes which are promoted, with their aliases. -/
def aliases : List (String × String) :=
  [("context_length", "context_length"), ("pooling_type", "pooling_type"),
    ("attention.causal", "attention_causal")]

/-- The value of the key of the architecture is promoted. -/
def promoteArch (arch : String) (out : Table Value)
    (entry : String × String) : Table Value :=
  match out.get (archKey arch entry.1) with
  | some value => out.put entry.2 value
  | none => out

/-- Without an architecture the first value of the suffix is promoted. -/
def promoteFirst (out : Table Value) (entry : String × String) :
    Table Value :=
  if out.has entry.2 then out
  else
    match out.entries.find? fun pair =>
        endsWith pair.1 entry.1 && pair.1 ≠ entry.2 with
    | some pair => out.put entry.2 pair.2
    | none => out

/-- The keys of the architecture, by their aliases. -/
def promote (scan : Scan) (out : Table Value) : Table Value :=
  match scan.arch with
  | some arch =>
    if arch = "" then aliases.foldl promoteFirst out
    else aliases.foldl (promoteArch arch) out
  | none => aliases.foldl promoteFirst out

/-- What stands before the pairs. -/
structure Preamble where
  magic : Bytes
  version : Nat
  tensorCount : Nat
  kvCount : Nat
deriving DecidableEq

def preamble : Reading Failure Preamble :=
  bind (take .malformed 4) fun magic =>
    bind u32 fun version =>
      bind u64 fun tensorCount =>
        map (fun kvCount => { magic, version, tensorCount, kvCount }) u64

/-- `_GGUF_MAGIC` -/
def ggufMagic : Bytes := [0x47, 0x47, 0x55, 0x46]

/-- What the dictionary starts with. -/
def Preamble.scan (header : Preamble) : Scan where
  out := (Table.empty.put "version" (.int header.version)).put
    "tensor_count" (.int header.tensorCount)
  arch := none

/-- The names of the first tensors, after a complete block. -/
def Preamble.withTensors (header : Preamble) (window : Bytes)
    (complete : Option Nat) (out : Table Value) : Table Value :=
  match complete with
  | none => out
  | some pos =>
    if header.tensorCount = 0 then out
    else
      match readTensorNames window pos
          (min header.tensorCount tensorNamePrefixCount) with
      | some names =>
        out.put "tensor_names_prefix" (.list (names.map Value.str))
      | none => out

/-- `_parse_header` -/
def parseHeader (levels : Nat) (window : Bytes) (requireComplete : Bool) :
    Except Failure (Option (Table Value)) :=
  match preamble window 0 with
  | .error failure => .error failure
  | .ok (header, pos) =>
    if header.magic ≠ ggufMagic then .ok none
    else
      match Scan.pairs levels window header.kvCount header.scan pos with
      | .error failure => .error failure
      | .ok (scan, complete) =>
        if requireComplete && complete.isNone then .ok none
        else
          .ok (some (promote scan
            (header.withTensors window complete scan.out)))

/-- `read_gguf_header_bytes` -/
def readHeaderBytes (levels : Nat) (buf : Bytes)
    (requireComplete : Bool := false) :
    Except Failure (Option (Table Value)) :=
  if buf.length < 24 then .ok none
  else parseHeader levels buf requireComplete

end Hal0.Registry.Gguf
