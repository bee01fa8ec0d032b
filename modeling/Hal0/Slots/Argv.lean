import Hal0.Core.Options
import Hal0.Slots.ConfigDoc

/-!
# The launch command line of a slot

`resolve_argv` joins the segments of a launch (`base`, `model`, `profile`,
`slot`) into one command line of `llama-server`, in which the last occurrence
of a flag wins.  The text of a profile is the operator's, so that it is
screened first: it may not set a flag which hal0 computes or which reaches
outside of the slot, nor carry a bare argument.
-/

namespace Hal0.Slots.Argv

open Hal0.Options

/-! ## Tables -/

/-- `FLAG_ALIASES` -/
def flagAliases : List (String × String) :=
  [("-b", "--batch-size"), ("-ub", "--ubatch-size"),
    ("-ngl", "--n-gpu-layers"), ("-ctk", "--cache-type-k"),
    ("-ctv", "--cache-type-v"), ("-t", "--threads"),
    ("-tb", "--threads-batch"), ("-fa", "--flash-attn"), ("-dev", "--device"),
    ("-sm", "--split-mode"), ("-c", "--ctx-size"), ("-rea", "--reasoning"),
    ("-ts", "--tensor-split"), ("-mg", "--main-gpu"), ("-np", "--parallel"),
    ("-kvu", "--kv-unified"), ("-ngld", "--n-gpu-layers-draft"),
    ("-m", "--model"), ("-a", "--alias"), ("--gpu-layers", "--n-gpu-layers"),
    ("-mm", "--mmproj"), ("-devd", "--spec-draft-device"),
    ("--device-draft", "--spec-draft-device"), ("-mmdev", "--mmproj-device"),
    ("-mu", "--model-url"), ("-mmu", "--mmproj-url"), ("-hf", "--hf-repo"),
    ("-hfr", "--hf-repo"), ("-hff", "--hf-file"), ("-hft", "--hf-token"),
    ("-dr", "--docker-repo"), ("-hfd", "--spec-draft-hf"),
    ("-hfrd", "--spec-draft-hf"), ("--hf-repo-draft", "--spec-draft-hf"),
    ("-md", "--spec-draft-model"), ("--model-draft", "--spec-draft-model"),
    ("-f", "--file"), ("-sysf", "--system-prompt-file"),
    ("-jf", "--json-schema-file"), ("-bf", "--binary-file"),
    ("-lcs", "--lookup-cache-static"), ("-lcd", "--lookup-cache-dynamic"),
    ("-o", "--output-file"), ("--output", "--output-file"),
    ("--kl-divergence-base", "--save-all-logits"), ("--audio", "--image"),
    ("--video", "--image"), ("--ui-config-file", "--webui-config-file"),
    ("--ui-mcp-proxy", "--webui-mcp-proxy"), ("-ag", "--agent")]

/-- `APPEND_FLAGS` -/
def appendFlags : List String :=
  ["--lora", "--draft-model", "--override-kv"]

/-- `MANAGED_ARGS_DENYLIST` -/
def managedArgsDenylist : List String :=
  ["--model", "--ctx-size", "--host", "--port", "--n-gpu-layers", "--alias"]

/-- `SLOT_HARDWARE_FLAGS` -/
def slotHardwareFlags : List String :=
  ["--n-gpu-layers", "-ngl", "--gpu-layers", "--device", "-dev", "--threads",
    "-t"]

/-- `LLAMA_PRESET_FLAGS` -/
def llamaPresetFlags : List String :=
  ["--embd-gemma-default", "--fim-qwen-1.5b-default",
    "--fim-qwen-3b-default", "--fim-qwen-7b-default", "--fim-qwen-7b-spec",
    "--fim-qwen-14b-spec", "--fim-qwen-30b-default", "--gpt-oss-20b-default",
    "--gpt-oss-120b-default", "--vision-gemma-4b-default",
    "--vision-gemma-12b-default", "--spec-default"]

/-- `VALUELESS_FLAGS` -/
def valuelessFlags : List String :=
  ["--agent", "--backend-sampling", "--cache-idle-slots", "--cache-list",
    "--cache-prompt", "--check", "--check-tensors", "--completion-bash",
    "--cont-batching", "--context-shift", "--conversation",
    "--cors-credentials", "--cpu-moe", "--cpu-moe-draft", "--dflash",
    "--diffusion-visual", "--display-prompt", "--eagle3",
    "--embd-gemma-default", "--embedding", "--embeddings", "--escape",
    "--fim-qwen-1.5b-default", "--fim-qwen-14b-spec",
    "--fim-qwen-30b-default", "--fim-qwen-3b-default",
    "--fim-qwen-7b-default", "--fim-qwen-7b-spec", "--gpt-oss-120b-default",
    "--gpt-oss-20b-default", "--hellaswag", "--help", "--ids", "--ignore-eos",
    "--in-prefix-bos", "--interactive", "--interactive-first", "--jinja",
    "--kl-divergence", "--kv-offload", "--kv-unified", "--list-devices",
    "--log-disable", "--log-jsonl", "--log-prefix", "--log-timestamps",
    "--log-verbose", "--lora-init-without-apply", "--metrics",
    "--mmproj-auto", "--mmproj-offload", "--models-autoload", "--mtp",
    "--multiline-input", "--multiple-choice", "--nextn", "--no-agent",
    "--no-bos", "--no-cache-idle-slots", "--no-cache-prompt",
    "--no-cont-batching", "--no-context-shift", "--no-conversation",
    "--no-cors-credentials", "--no-display-prompt", "--no-escape",
    "--no-host", "--no-jinja", "--no-kv-offload", "--no-kv-unified",
    "--no-log-jsonl", "--no-log-prefix", "--no-log-timestamps", "--no-mmproj",
    "--no-mmproj-auto", "--no-mmproj-offload", "--no-models-autoload",
    "--no-op-offload", "--no-parse-special", "--no-perf", "--no-ppl",
    "--no-prefill-assistant", "--no-reasoning-preserve", "--no-repack",
    "--no-show-timings", "--no-skip-chat-parsing", "--no-slots",
    "--no-spec-draft-backend-sampling", "--no-ui", "--no-ui-mcp-proxy",
    "--no-warmup", "--no-webui", "--no-webui-mcp-proxy", "--offline",
    "--op-offload", "--parse-special", "--perf", "--ppl",
    "--prefill-assistant", "--process-output", "--prompt-cache-all",
    "--prompt-cache-ro", "--props", "--reasoning-preserve", "--repack",
    "--rerank", "--reranking", "--reuse-port", "--save-logits",
    "--show-count", "--show-statistics", "--show-timings", "--simple-io",
    "--single-turn", "--skip-chat-parsing", "--slots", "--spec-default",
    "--spec-draft-backend-sampling", "--spec-draft-cpu-moe", "--special",
    "--spm-infill", "--stdin", "--swa-full", "--ui", "--ui-mcp-proxy",
    "--usage", "--verbose", "--verbose-prompt", "--version",
    "--vision-gemma-12b-default", "--vision-gemma-4b-default", "--warmup",
    "--webui", "--webui-mcp-proxy", "--winogrande", "-ag", "-bs", "-cb",
    "-cl", "-cmoe", "-cmoed", "-cnv", "-e", "-h", "-i", "-if", "-kvo", "-kvu",
    "-mli", "-nkvo", "-no-ag", "-no-cnv", "-no-kvu", "-nocb", "-nr", "-pps",
    "-sp", "-st", "-tgs", "-v"]

/-- `HOST_OWNED_FLAGS` -/
def hostOwnedFlags : List String :=
  ["--model-url", "--mmproj-url", "--hf-repo", "--hf-file", "--hf-token",
    "--docker-repo", "--spec-draft-hf", "--server-base", "--spec-draft-model",
    "--file", "--system-prompt-file", "--in-file", "--binary-file",
    "--prompt-cache", "--grammar-file", "--json-schema-file", "--lora",
    "--lora-scaled", "--control-vector", "--control-vector-scaled",
    "--lookup-cache-static", "--lookup-cache-dynamic", "--context-file",
    "--output-file", "--save-all-logits", "--logits-output-dir", "--log-file",
    "--log-prompts-dir", "--slot-save-path", "--media-path", "--path",
    "--image", "--video-ffmpeg-dir", "--positive-file", "--negative-file",
    "--tts-speaker-file", "--webui-config-file", "--mcp-servers-config",
    "--models-dir", "--models-preset", "--rpc", "--reuse-port",
    "--api-prefix", "--cors-origins", "--cors-methods", "--cors-headers",
    "--cors-credentials", "--webui-mcp-proxy", "--agent", "--tools",
    "--tools-runtime", "--mcp-servers-json", "--models-max",
    "--models-autoload", "--api-key", "--api-key-file", "--ssl-key-file",
    "--ssl-cert-file"] ++
    llamaPresetFlags

/-- `MODEL_FACT_FLAGS` -/
def modelFactFlags : List String :=
  ["--spec-type", "--jinja", "--no-jinja", "--chat-template",
    "--chat-template-file", "--mmproj", "--no-mmproj", "--mmproj-auto",
    "--no-mmproj-auto"]

/-- `DERIVED_PLACEMENT_FLAGS` -/
def derivedPlacementFlags : List String :=
  ["--spec-draft-device", "--mmproj-device"]

/-! ## Tokens -/

/-- `_is_flag`, with `str.isalpha` of one character. -/
def isFlag (isAlpha : Char → Bool) (token : String) : Bool :=
  match token.toList with
  | '-' :: '-' :: rest => rest ≠ []
  | '-' :: char :: _ => isAlpha char
  | _ => false

def isLong (token : String) : Bool :=
  ['-', '-'].isPrefixOf token.toList

/-- In a long flag `_` reads as `-`. -/
def dashed (flag : String) : String :=
  if isLong flag then
    String.ofList (flag.toList.map fun char =>
      if char = '_' then '-' else char)
  else flag

/-- `_canon` -/
def canon (flag : String) : String :=
  let name := dashed (String.ofList (flag.toList.takeWhile (· ≠ '=')))
  (flagAliases.lookup name).getD name

/-- The value is joined by `=`. -/
def isJoined (flag : String) : Bool := flag.toList.contains '='

/-- `_takes_value` -/
def takesValue (flag : String) : Bool :=
  !isJoined flag && !valuelessFlags.contains (dashed flag)

/-- The flags of the server's command line. -/
def grammar (isAlpha : Char → Bool) : Grammar String where
  isFlag := isFlag isAlpha
  takesValue := takesValue

/-- `_split_pairs` -/
def splitPairs (isAlpha : Char → Bool) (tokens : List String) :
    List (Item String) :=
  (grammar isAlpha).group tokens

/-! ## Screening -/

/-- The flags of `tokens` whose canonical key is in `denied`. -/
def offendingFlags (isAlpha : Char → Bool) (denied : List String)
    (tokens : List String) : List String :=
  (splitPairs isAlpha tokens).filterMap fun
    | .flag head _ => if canon head ∈ denied then some head else none
    | .bare _ => none

/-- The tokens that belong to no flag. -/
def bareArguments (isAlpha : Char → Bool) (tokens : List String) :
    List String :=
  (splitPairs isAlpha tokens).filterMap fun
    | .flag _ _ => none
    | .bare token => some token

/-- The codes of the refusals. -/
inductive Refusal where
  | hardwareFlagDenied
  | managedArgDenied
  | modelFactFlagDenied
  | hostOwnedFlagDenied
  | positionalArgDenied
deriving DecidableEq, Repr

/-- The code of the error. -/
def Refusal.code : Refusal → String
  | .hardwareFlagDenied => "slot.hardware_flag_denied"
  | .managedArgDenied => "slot.managed_arg_denied"
  | .modelFactFlagDenied => "profiles.model_fact_flag_denied"
  | .hostOwnedFlagDenied => "slot.host_owned_flag_denied"
  | .positionalArgDenied => "slot.positional_arg_denied"

/-- The `details` of a refusal are the segment and the offenders. -/
structure BadRequest where
  refusal : Refusal
  segment : String
  offenders : List String
deriving DecidableEq, Repr

/-- Any offender is an error. -/
def deny (refusal : Refusal) (segment : String) (offenders : List String) :
    Except BadRequest Unit :=
  if offenders = [] then .ok () else .error ⟨refusal, segment, offenders⟩

/-- `_deny_slot_hardware_flags` -/
def denySlotHardwareFlags (isAlpha : Char → Bool) (tokens : List String)
    (segment : String) : Except BadRequest Unit :=
  deny .hardwareFlagDenied segment
    (offendingFlags isAlpha slotHardwareFlags tokens)

/-- `_deny_managed_flags` -/
def denyManagedFlags (isAlpha : Char → Bool) (tokens : List String)
    (segment : String) : Except BadRequest Unit :=
  deny .managedArgDenied segment
    (offendingFlags isAlpha managedArgsDenylist tokens)

/-- `_deny_profile_owned_elsewhere` -/
def denyProfileOwnedElsewhere (isAlpha : Char → Bool) (tokens : List String)
    (segment : String) : Except BadRequest Unit :=
  deny .modelFactFlagDenied segment
    (offendingFlags isAlpha (modelFactFlags ++ derivedPlacementFlags) tokens)

/-- `_deny_host_owned_flags` -/
def denyHostOwnedFlags (isAlpha : Char → Bool) (tokens : List String)
    (segment : String) : Except BadRequest Unit :=
  deny .hostOwnedFlagDenied segment
    (offendingFlags isAlpha hostOwnedFlags tokens)

/-- `_deny_positional_args` -/
def denyPositionalArgs (isAlpha : Char → Bool) (tokens : List String)
    (segment : String) : Except BadRequest Unit :=
  deny .positionalArgDenied segment (bareArguments isAlpha tokens)

/-- `screen_profile_segment` -/
def screenProfileSegment (isAlpha : Char → Bool) (tokens : List String)
    (segment : String) : Except BadRequest Unit := do
  denySlotHardwareFlags isAlpha tokens segment
  denyManagedFlags isAlpha tokens segment
  denyProfileOwnedElsewhere isAlpha tokens segment
  denyHostOwnedFlags isAlpha tokens segment
  denyPositionalArgs isAlpha tokens segment

/-! ## The reasoning format -/

/-- `value.strip().lower() == "none"` -/
def isNone (value : String) : Bool :=
  (ConfigFiles.stripped value).map Char.toLower = "none".toList

/-- The item sets `--reasoning-format` to `none`. -/
def setsReasoningNone : Item String → Bool
  | .flag head value =>
    canon head = "--reasoning-format" &&
      isNone (if isJoined head then
          String.ofList ((head.toList.dropWhile (· ≠ '=')).drop 1)
        else value.getD "")
  | .bare _ => false

/-- What is left of an item; a joined flag does not own the next token. -/
def withoutReasoningNone (item : Item String) : List String :=
  if setsReasoningNone item then
    match item with
    | .flag head value => if isJoined head then value.toList else []
    | .bare _ => []
  else item.tokens

/-- `strip_reasoning_format_none`, without the count. -/
def stripReasoningFormatNone (isAlpha : Char → Bool)
    (tokens : List String) : List String :=
  (splitPairs isAlpha tokens).flatMap withoutReasoningNone

/-! ## The merge -/

abbrev Segment := String × List String

/-- `PROFILE_SEGMENT_LABELS`, which are also the untrusted ones. -/
def isProfile (label : String) : Bool := label = "profile"

abbrev Sourced := String × String

/-- The tokens of one segment, as they are merged. -/
def segmentTokens (isAlpha : Char → Bool) (segment : Segment) :
    List Sourced :=
  (stripReasoningFormatNone isAlpha segment.2).map (·, segment.1)

/-- `_split_pairs(tokens, sources)` of the merged segments. -/
def mergedPairs (isAlpha : Char → Bool) (segments : List Segment) :
    List (Item Sourced) :=
  ((grammar isAlpha).comap Prod.fst).group
    (segments.flatMap (segmentTokens isAlpha))

/-- The key under which a pair is deduplicated. -/
def dedupKey : Item Sourced → Option String
  | .flag head _ =>
    if canon head.1 ∈ appendFlags then none else some (canon head.1)
  | .bare _ => none

/-- The pairs which `_dedup` keeps. -/
def survivingPairs (isAlpha : Char → Bool) (segments : List Segment) :
    List (Item Sourced) :=
  lastWins dedupKey (mergedPairs isAlpha segments)

/-- A flag and the segment it is from. -/
structure FlagProvenance where
  flag : String
  value : Option String
  source : String
deriving DecidableEq, Repr

/-- `ResolvedArgv` -/
structure ResolvedArgv where
  argv : List String
  provenance : List FlagProvenance
  removed : Nat
deriving DecidableEq, Repr

/-- The entry of a surviving pair; the repeatable flags have none. -/
def provenanceOf : Item Sourced → Option FlagProvenance
  | .flag head value =>
    if canon head.1 ∈ appendFlags then none
    else some ⟨head.1, value.map Prod.fst, head.2⟩
  | .bare _ => none

/-- The screens of all segments, in their order. -/
def screenSegments (isAlpha : Char → Bool) :
    List Segment → Except BadRequest Unit
  | [] => .ok ()
  | (label, tokens) :: rest => do
      if isProfile label then screenProfileSegment isAlpha tokens label
      screenSegments isAlpha rest

/-- `resolve_argv` -/
def resolveArgv (isAlpha : Char → Bool) (segments : List Segment) :
    Except BadRequest ResolvedArgv := do
  screenSegments isAlpha segments
  let pairs := mergedPairs isAlpha segments
  let surviving := survivingPairs isAlpha segments
  return {
    argv := (surviving.flatMap Item.tokens).map Prod.fst
    provenance := surviving.filterMap provenanceOf
    removed := pairs.length - surviving.length }

end Hal0.Slots.Argv
