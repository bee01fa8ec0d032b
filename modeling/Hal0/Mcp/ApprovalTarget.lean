import Mathlib.Data.List.Sort
import Mathlib.Data.List.Perm.Basic
import Mathlib.Data.String.Basic

/-!
# Targets of gated tool calls

Two gated calls share one row of the approval inbox when they agree in the
tool and in a text, `primaryTarget`.  For a tool with a registered primary
argument the text is that argument, rendered as Python renders it: a list by
its sorted items joined with commas, an absent argument or `None` by the
empty text, and everything else by `str`.  For any other tool it is a digest
of the whole argument dict.

`SameTarget` says, in terms of the JSON values themselves, that two calls are
aimed at the same thing.  The rest of the module compares the two.
-/

namespace Hal0.Mcp

/-! ## JSON values -/

/--
A JSON value as the tool call carries it.  A float is given by its `repr`,
which identifies it, and an object by its members in insertion order.
-/
inductive Json where
  | null
  | bool (value : Bool)
  | int (value : Int)
  | float (text : String)
  | str (text : String)
  | arr (items : List Json)
  | obj (fields : List (String × Json))

/-- The arguments of a call. -/
abbrev Args := List (String × Json)

/-- `args.get(key)`: an absent argument reads as `None`. -/
def Args.get (args : Args) (key : String) : Json :=
  (args.lookup key).getD .null

/--
What the queue takes from the language's library: the quoting of a string by
`repr`, and the truncated SHA-1 of the canonical dump of a value.
-/
structure Python where
  quote : String → String
  digest : Json → String

section

variable (python : Python)

mutual

/-- `repr(value)` -/
def Json.repr : Json → String
  | .null => "None"
  | .bool value => if value then "True" else "False"
  | .int value => toString value
  | .float text => text
  | .str text => python.quote text
  | .arr items => "[" ++ ", ".intercalate (Json.reprItems items) ++ "]"
  | .obj fields =>
    "\x7b" ++ ", ".intercalate (Json.reprFields fields) ++ "\x7d"

def Json.reprItems : List Json → List String
  | [] => []
  | item :: rest => item.repr :: Json.reprItems rest

def Json.reprFields : List (String × Json) → List String
  | [] => []
  | (key, value) :: rest =>
    (python.quote key ++ ": " ++ value.repr) :: Json.reprFields rest

end

/-- `str(value)` -/
def Json.toText : Json → String
  | .str text => text
  | value => value.repr python

end

mutual

/-- The value with the members of every object sorted by key. -/
def Json.canonical : Json → Json
  | .arr items => .arr (Json.canonicalItems items)
  | .obj fields =>
    .obj ((Json.canonicalFields fields).insertionSort
      fun left right => left.1 ≤ right.1)
  | value => value

def Json.canonicalItems : List Json → List Json
  | [] => []
  | item :: rest => item.canonical :: Json.canonicalItems rest

def Json.canonicalFields : List (String × Json) → List (String × Json)
  | [] => []
  | (key, value) :: rest =>
    (key, value.canonical) :: Json.canonicalFields rest

end

/-! ## The dedup key -/

/-- `_PRIMARY_TARGET_ARG` -/
def primaryTargetArg : List (String × String) :=
  [("model_pull", "model_id"),
    ("model_delete", "model_id"),
    ("slot_create", "name"),
    ("slot_delete", "name"),
    ("slot_restart", "name"),
    ("capability_set", "slot"),
    ("config_write", "path"),
    ("provider_credential_write", "name"),
    ("memory_delete", "ids"),
    ("agent_run_approval", "run_id")]

/-- `_hash_args` -/
def hashArgs (python : Python) (args : Args) : String :=
  python.digest (Json.canonical (.obj args))

/-- The text of a registered primary argument. -/
def targetText (python : Python) : Json → String
  | .arr items =>
    ",".intercalate
      ((items.map (Json.toText python)).insertionSort (· ≤ ·))
  | .null => ""
  | value => value.toText python

/-- `_primary_target` -/
def primaryTarget (python : Python) (tool : String) (args : Args) : String :=
  match primaryTargetArg.lookup tool with
  | none => hashArgs python args
  | some key => targetText python (args.get key)

/-- `_target_args` -/
def targetArgs (tool : String) (args : Args) (named : List String) :
    List String :=
  ((named ++ (primaryTargetArg.lookup tool).toList).eraseDups).filter
    fun key => (args.lookup key).isSome

/-! ## What two calls are aimed at -/

/-- The same value; the order of a list of targets does not matter. -/
inductive Json.SameTarget : Json → Json → Prop where
  | list {left right : List Json} (permuted : left.Perm right) :
      SameTarget (.arr left) (.arr right)
  | same (value : Json) : SameTarget value value

/--
Two calls of one tool aimed at the same thing: the same identifying argument
where one is registered, else the same arguments as a whole.  Values are
compared as JSON values, so the order of an object's members is no part of
them.
-/
def SameTarget (tool : String) (left right : Args) : Prop :=
  match primaryTargetArg.lookup tool with
  | none => Json.canonical (.obj left) = Json.canonical (.obj right)
  | some key =>
    (left.get key).canonical.SameTarget (right.get key).canonical

theorem SameTarget.refl (tool : String) (args : Args) :
    SameTarget tool args args := by
  unfold SameTarget
  cases primaryTargetArg.lookup tool with
  | none => rfl
  | some key => exact .same _

end Hal0.Mcp
