import Hal0.Slots.Lifecycle
import Mathlib.Data.List.Basic

/-!
# The two fabric-clock classifications

`_guard_fabric_clock` classifies the slot it loads by the `device` of its
config, and the peers of that slot by the backend token of their snapshots.
Here: both rules, and the configs on which they agree.
-/

namespace Hal0.Slots.FabricClock

open Hal0.Slots.Lifecycle

/-- What the classifications read of a slot's config, and of its record. -/
structure FabricConfig where
  device : Option String
  backend : Option String
  /-- `extra["backend"]` of the state record. -/
  carried : Option String
deriving DecidableEq, Repr

/-! ## The effective backend -/

/-- The characters which `strip` takes off. -/
def isBlank (char : Char) : Bool :=
  let code := char.toNat
  (9 ≤ code && code ≤ 13) || (28 ≤ code && code ≤ 32) || code = 0x85 ||
    code = 0xa0 || code = 0x1680 || (0x2000 ≤ code && code ≤ 0x200a) ||
    code = 0x2028 || code = 0x2029 || code = 0x202f || code = 0x205f ||
    code = 0x3000

/-- `text.strip().lower()` of an ASCII text; other letters are not lowered. -/
def stripLower (text : String) : String :=
  String.ofList ((((text.toList.dropWhile isBlank).reverse.dropWhile
    isBlank).reverse).map Char.toLower)

/-- `device_to_backend`: the recipe and the llama.cpp backend of a device. -/
def deviceToBackend (device : String) : Option String × Option String :=
  match stripLower device with
  | "gpu-rocm" => (none, some "rocm")
  | "gpu-vulkan" => (none, some "vulkan")
  | "gpu-cuda" => (none, some "cuda")
  | "cpu" => (none, some "cpu")
  | "npu" => (some "flm", none)
  | _ => (none, none)

/-- `map_backend_to_device` of a non-empty legacy backend. -/
def mapBackendToDevice (backend : String) : String :=
  match backend with
  | "rocm" | "gpu-rocm" => "gpu-rocm"
  | "vulkan" | "gpu-vulkan" => "gpu-vulkan"
  | "cuda" | "gpu-cuda" => "gpu-cuda"
  | "flm" | "npu" => "npu"
  | _ => "cpu"

def truthy : Option String → Option String
  | some "" => none
  | text => text

/-- `_cfg_effective_backend`. -/
def cfgEffectiveBackend (cfg : FabricConfig) : Option String :=
  let device := (truthy cfg.device).or
    ((truthy cfg.backend).map mapBackendToDevice)
  device.bind fun device =>
    let (recipe, llamacppBackend) := deviceToBackend device
    llamacppBackend.or (if recipe = some "flm" then recipe else none)

/-! ## The loading slot and its peers -/

/-- The class `_guard_fabric_clock` gives the slot it loads. -/
def guardClass (cfg : FabricConfig) : Option FabricClass :=
  if cfg.device = some "npu" then some .npu
  else if cfg.device ≠ none ∧ cfg.device ≠ some "cpu" ∧
      cfgEffectiveBackend cfg ≠ some "cuda" then some .gpu
  else none

def npuBackends : List String := ["flm", "xdna2"]
def gpuBackends : List String := ["vulkan", "rocm", "hip"]

/-- `slot_uses_npu`, of the tokens of `_backend_tokens`. -/
def slotUsesNpu (backend deviceClass : String) : Bool :=
  npuBackends.contains backend || deviceClass = "npu"

/-- `slot_uses_gpu`, of the tokens of `_backend_tokens`. -/
def slotUsesGpu (backend deviceClass : String) : Bool :=
  if deviceClass = "npu" || npuBackends.contains backend then false
  else if backend = "cuda" then false
  else if deviceClass = "gpu" then true
  else gpuBackends.contains backend

/-- The backend token of the snapshot which `status` returns. -/
def snapshotBackend (cfg : FabricConfig) : String :=
  String.ofList ((((cfgEffectiveBackend cfg).or cfg.carried).getD
    "").toList.map Char.toLower)

/-- The class that a guard sees in a peer's snapshot. -/
def snapshotUses (cfg : FabricConfig) : FabricClass → Bool
  | .npu => slotUsesNpu (snapshotBackend cfg) ""
  | .gpu => slotUsesGpu (snapshotBackend cfg) ""

/-- Snapshot and guard see one class. -/
def Agree (cfg : FabricConfig) : Prop :=
  ∀ side, snapshotUses cfg side = true ↔ guardClass cfg = some side

/-! ## Where the rules agree -/

/--
No device and no token of either side; or the device `npu` or `cpu`, spelled
so; or another device with a token of the graphics side, or with CUDA.
-/
def Plain (cfg : FabricConfig) : Prop :=
  match cfg.device with
  | none =>
    snapshotBackend cfg ∉ npuBackends ∧ snapshotBackend cfg ∉ gpuBackends
  | some device =>
    device = "npu" ∨ device = "cpu" ∨
      cfgEffectiveBackend cfg = some "cuda" ∨
      snapshotBackend cfg ∈ gpuBackends

theorem snapshotUses_npu (cfg : FabricConfig) :
    snapshotUses cfg .npu = true ↔ snapshotBackend cfg ∈ npuBackends := by
  simp [snapshotUses, slotUsesNpu]

theorem gpuBackends_apart {backend : String}
    (graphics : backend ∈ gpuBackends) :
    backend ∉ npuBackends ∧ backend ≠ "cuda" := by
  simp only [gpuBackends, List.mem_cons, List.not_mem_nil, or_false]
    at graphics
  rcases graphics with token | token | token <;> rw [token] <;> decide

theorem snapshotUses_gpu (cfg : FabricConfig) :
    snapshotUses cfg .gpu = true ↔ snapshotBackend cfg ∈ gpuBackends := by
  simp only [snapshotUses, slotUsesGpu]
  constructor
  · intro uses
    split_ifs at uses
    · contradiction
    · simpa using uses
  · intro graphics
    obtain ⟨notNpu, notCuda⟩ := gpuBackends_apart graphics
    simp [notNpu, notCuda, graphics]

theorem snapshotBackend_of_effective {cfg : FabricConfig} {token : String}
    (effective : cfgEffectiveBackend cfg = some token) :
    snapshotBackend cfg = String.ofList (token.toList.map Char.toLower) := by
  rw [snapshotBackend, effective]
  rfl

theorem cfgEffectiveBackend_npu (backend carried : Option String) :
    cfgEffectiveBackend ⟨some "npu", backend, carried⟩ = some "flm" := by
  rfl

theorem cfgEffectiveBackend_cpu (backend carried : Option String) :
    cfgEffectiveBackend ⟨some "cpu", backend, carried⟩ = some "cpu" := by
  rfl

theorem agree_iff {cfg : FabricConfig} :
    Agree cfg ↔
      (snapshotBackend cfg ∈ npuBackends ↔ guardClass cfg = some .npu) ∧
      (snapshotBackend cfg ∈ gpuBackends ↔ guardClass cfg = some .gpu) := by
  constructor
  · intro agree
    exact ⟨(snapshotUses_npu cfg).symm.trans (agree .npu),
      (snapshotUses_gpu cfg).symm.trans (agree .gpu)⟩
  · rintro ⟨npu, gpu⟩ side
    cases side with
    | npu => exact (snapshotUses_npu cfg).trans npu
    | gpu => exact (snapshotUses_gpu cfg).trans gpu

/-- The configs in which both see one class. -/
theorem agree_iff_plain (cfg : FabricConfig) : Agree cfg ↔ Plain cfg := by
  obtain ⟨device, backend, carried⟩ := cfg
  rw [agree_iff]
  cases device with
  | none => simp [guardClass, Plain]
  | some device =>
    by_cases npu : device = "npu"
    · subst npu
      have token := snapshotBackend_of_effective
        (cfgEffectiveBackend_npu backend carried)
      have plain : Plain ⟨some "npu", backend, carried⟩ := Or.inl rfl
      rw [token]
      refine iff_of_true ⟨?_, ?_⟩ plain
      · exact iff_of_true (by decide) rfl
      · exact iff_of_false (by decide) nofun
    by_cases cpu : device = "cpu"
    · subst cpu
      have token := snapshotBackend_of_effective
        (cfgEffectiveBackend_cpu backend carried)
      have plain : Plain ⟨some "cpu", backend, carried⟩ :=
        Or.inr (Or.inl rfl)
      rw [token]
      refine iff_of_true ⟨?_, ?_⟩ plain
      · exact iff_of_false (by decide) nofun
      · exact iff_of_false (by decide) nofun
    by_cases cuda : cfgEffectiveBackend ⟨some device, backend, carried⟩ =
        some "cuda"
    · have token := snapshotBackend_of_effective cuda
      have unguarded : guardClass ⟨some device, backend, carried⟩ =
          none := by
        simp [guardClass, npu, cuda]
      have plain : Plain ⟨some device, backend, carried⟩ :=
        Or.inr (Or.inr (Or.inl cuda))
      rw [token, unguarded]
      refine iff_of_true ⟨?_, ?_⟩ plain
      · exact iff_of_false (by decide) nofun
      · exact iff_of_false (by decide) nofun
    · have graphics : guardClass ⟨some device, backend, carried⟩ =
          some .gpu := by
        simp [guardClass, npu, cpu, cuda]
      simp only [graphics, Plain, npu, cpu, cuda, false_or, iff_true,
        Option.some.injEq, reduceCtorEq, iff_false, and_iff_right_iff_imp]
      exact fun token => (gpuBackends_apart token).1

end Hal0.Slots.FabricClock
