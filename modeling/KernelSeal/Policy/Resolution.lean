import KernelSeal.Policy.Loader

/-!
# Where secrets come from

`loadSecrets` hands the registry one binding for each configured one and puts every
reference either among its secrets or among its unresolved names.  What a reference
resolves to is stated here without the control flow of `resolveSecretValue`: a
reference names one source, and the source has a content or none.  For two sources
that content is not the plain one.  A variable that is set to the empty string counts
as not set, and a Secret that is not mounted is looked for among the files of the
agent's service account.
-/

namespace KernelSeal.Resolution

open KernelSeal.Text
open KernelSeal.Registry
open KernelSeal.Delivery
open KernelSeal.Loader

/-! ## Sources and their contents -/

/-- The outside world: which variables are set, and which files can be read. -/
structure World where
  env : GoString → Option GoString
  files : GoString → Except GoError GoString

/-- What the loader sees; `os.Getenv` does not tell unset from empty. -/
def World.host (world : World) : Host where
  getenv name := (world.env name).getD []
  readFile := world.files

/-- The trimmed content of a file that can be read. -/
def World.read (world : World) (path : GoString) : Option GoString :=
  (world.files path).toOption.map trimSpace

/-- The source that a reference names. -/
inductive Source where
  | literal (value : GoString)
  | envVar (name : GoString)
  | file (path : GoString)
  | secretKey (ref : SecretKeyRef)
  | vault
  | nothing

/-- A reference with several fields set names the first of them in this order. -/
def named (source : SecretSource) : Source :=
  if source.value ≠ [] then .literal source.value
  else if source.envRef ≠ [] then .envVar source.envRef
  else if source.fileRef ≠ [] then .file source.fileRef
  else
    match source.secretKeyRef, source.vaultRef with
    | some ref, _ => .secretKey ref
    | none, some _ => .vault
    | none, none => .nothing

/-- Where a Secret is to be mounted. -/
def mountPath (ref : SecretKeyRef) : GoString :=
  str "/var/run/secrets/kernelseal/" ++ ref.name ++ str "/" ++ ref.key

/-- The file of the service account with the same key. -/
def serviceAccountPath (ref : SecretKeyRef) : GoString :=
  str "/var/run/secrets/kubernetes.io/serviceaccount/" ++ ref.key

section Content

variable (world : World)

/-- What the named source holds. -/
def Source.holds : Source → Option GoString
  | .literal value => some value
  | .envVar name => world.env name
  | .file path => world.read path
  | .secretKey ref => world.read (mountPath ref)
  | .vault => none
  | .nothing => none

/-- What the loader takes from it. -/
def Source.content : Source → Option GoString
  | .envVar name => (world.env name).filter (· ≠ [])
  | .secretKey ref =>
      (world.read (mountPath ref)).or (world.read (serviceAccountPath ref))
  | source => source.holds world

/-- The two come apart at a variable that is set to nothing and at a Secret that is
not mounted. -/
theorem Source.content_eq (source : Source) :
    source.content world = source.holds world ∨
      (∃ name, source = .envVar name ∧ world.env name = some [] ∧
        source.content world = none) ∨
      ∃ ref, source = .secretKey ref ∧ world.read (mountPath ref) = none ∧
        source.content world = world.read (serviceAccountPath ref) := by
  cases source with
  | envVar name =>
      cases henv : world.env name with
      | none => simp [Source.content, Source.holds, henv]
      | some value =>
          by_cases hvalue : value = []
          · simp [Source.content, henv, hvalue]
          · simp [Source.content, Source.holds, henv, hvalue]
  | secretKey ref =>
      cases hmount : world.read (mountPath ref) with
      | none => simp [Source.content, hmount]
      | some value => simp [Source.content, Source.holds, hmount]
  | literal value => exact Or.inl rfl
  | file path => exact Or.inl rfl
  | vault => exact Or.inl rfl
  | nothing => exact Or.inl rfl

/-- An empty variable is not taken. -/
theorem toOption_getenv (name : GoString) (err : GoError) :
    (if world.host.getenv name = [] then .error err
      else .ok (world.host.getenv name) : Except GoError GoString).toOption =
        (world.env name).filter (· ≠ []) := by
  have hget : world.host.getenv name = (world.env name).getD [] := rfl
  by_cases hempty : world.host.getenv name = []
  · rw [if_pos hempty]
    rw [hget] at hempty
    cases hvalue : world.env name with
    | none => rfl
    | some value =>
        rw [hvalue, Option.getD_some] at hempty
        rw [hempty]
        rfl
  · rw [if_neg hempty]
    rw [hget] at hempty ⊢
    cases hvalue : world.env name with
    | none =>
        rw [hvalue] at hempty
        exact absurd rfl hempty
    | some value =>
        rw [hvalue, Option.getD_some] at hempty
        rw [Option.filter_some_pos (by simpa using hempty)]
        rfl

/-- `resolveSecretValue` returns the content of the named source, or fails. -/
theorem toOption_resolveSecretValue (source : SecretSource) :
    (resolveSecretValue world.host source).toOption = (named source).content world := by
  rw [resolveSecretValue, named]
  by_cases hvalue : source.value ≠ []
  · rw [if_pos hvalue, if_pos hvalue]
    rfl
  by_cases henv : source.envRef ≠ []
  · rw [if_neg hvalue, if_neg hvalue, if_pos henv, if_pos henv]
    exact toOption_getenv world _ _
  by_cases hfile : source.fileRef ≠ []
  · rw [if_neg hvalue, if_neg hvalue, if_neg henv, if_neg henv, if_pos hfile, if_pos hfile]
    simp only [Source.content, Source.holds, World.read, World.host]
    cases world.files source.fileRef <;> rfl
  rw [if_neg hvalue, if_neg hvalue, if_neg henv, if_neg henv, if_neg hfile, if_neg hfile]
  cases source.secretKeyRef with
  | none => cases source.vaultRef <;> rfl
  | some ref =>
      simp only [Source.content, World.read, World.host, mountPath, serviceAccountPath]
      cases world.files (str "/var/run/secrets/kernelseal/" ++ ref.name ++ str "/" ++ ref.key) with
      | ok content => rfl
      | error err =>
          cases world.files
            (str "/var/run/secrets/kubernetes.io/serviceaccount/" ++ ref.key) <;> rfl

end Content

/-! ## Bindings -/

section Loaded

variable (world : World)

/-- The secret that a reference delivers. -/
def delivered (ref : SecretRef) : Option Secret :=
  ((named ref.source).content world).map fun value => ⟨ref.name, value⟩

/-- The references that deliver nothing. -/
def missing (refs : List SecretRef) : List SecretRef :=
  refs.filter fun ref => ((named ref.source).content world).isNone

/-- What becomes of a configured binding. -/
structure Loaded (configured : SecretBinding) (binding : Binding) : Prop where
  selector : binding.selector = configured.selector.toSelector
  secrets : binding.secrets = configured.secretRefs.filterMap (delivered world)
  unresolved : binding.unresolved = (missing world configured.secretRefs).map SecretRef.name

/-- One turn of the inner loop, by what the reference delivers. -/
theorem addSecret_eq (out : Binding) (ref : SecretRef) :
    addSecret world.host out ref =
      { out with
        secrets := out.secrets ++ [ref].filterMap (delivered world)
        unresolved := out.unresolved ++ (missing world [ref]).map SecretRef.name } := by
  have hcontent := toOption_resolveSecretValue world ref.source
  rw [addSecret]
  cases hresolve : resolveSecretValue world.host ref.source with
  | error err =>
      rw [hresolve] at hcontent
      have hnone : (named ref.source).content world = none := hcontent.symm
      simp [delivered, missing, hnone]
  | ok value =>
      rw [hresolve] at hcontent
      have hsome : (named ref.source).content world = some value := hcontent.symm
      simp [delivered, missing, hsome]

theorem foldl_addSecret_eq (refs : List SecretRef) (out : Binding) :
    refs.foldl (addSecret world.host) out =
      { out with
        secrets := out.secrets ++ refs.filterMap (delivered world)
        unresolved := out.unresolved ++ (missing world refs).map SecretRef.name } := by
  induction refs generalizing out with
  | nil => simp [missing]
  | cons ref refs ih =>
      have hmissing : missing world (ref :: refs) = missing world [ref] ++ missing world refs := by
        rw [missing, missing, missing, ← List.filter_append, List.singleton_append]
      have hdelivered : (ref :: refs).filterMap (delivered world) =
          [ref].filterMap (delivered world) ++ refs.filterMap (delivered world) := by
        rw [← List.filterMap_append, List.singleton_append]
      rw [List.foldl_cons, ih, addSecret_eq, hmissing, hdelivered, List.map_append,
        List.append_assoc, List.append_assoc]

theorem loadBinding_loaded (mode : PodIdentityMode) (index : ℕ) (configured : SecretBinding) :
    Loaded world configured (loadBinding world.host mode index configured) where
  selector := loadBinding_selector mode index configured
  secrets := by
    rw [loadBinding, foldl_addSecret_eq]
    rfl
  unresolved := by
    rw [loadBinding, foldl_addSecret_eq]
    rfl

end Loaded

/-- One binding for each configured one, in order and with its selector; every
reference is either a secret with the content of the source it names or an unresolved
name.  The content is what the source holds, except that an empty variable has none
and that a Secret which is not mounted has that of the service account's file. -/
theorem loadSecrets_resolves (unicode : Unicode) (world : World) (config : KernelSealConfig) :
    List.Forall₂ (Loaded world) config.secrets (loadSecrets unicode world.host config) ∧
    (∀ refs : List SecretRef,
      (refs.filterMap (delivered world)).length + (missing world refs).length = refs.length) ∧
    (∀ source : Source, source.content world = source.holds world ∨
      (∃ name, source = .envVar name ∧ world.env name = some [] ∧
        source.content world = none) ∨
      ∃ ref, source = .secretKey ref ∧ world.read (mountPath ref) = none ∧
        source.content world = world.read (serviceAccountPath ref)) := by
  refine ⟨?_, fun refs => ?_, Source.content_eq world⟩
  · rw [loadSecrets, List.forall₂_iff_get]
    refine ⟨List.length_mapIdx.symm, fun index hconfigured hloaded => ?_⟩
    rw [List.get_eq_getElem, List.get_eq_getElem, List.getElem_mapIdx]
    exact loadBinding_loaded world _ index _
  · have hcount := loadBinding_count world.host .preferred 0 { selector := {}, secretRefs := refs }
    have hloaded := loadBinding_loaded world .preferred 0 { selector := {}, secretRefs := refs }
    rwa [hloaded.secrets, hloaded.unresolved, List.length_map] at hcount

/-- A Secret that is not mounted, where the service account has a file of that name. -/
def accountWorld : World where
  env _ := none
  files path :=
    if path = str "/var/run/secrets/kubernetes.io/serviceaccount/token" then .ok (str "jwt\n")
    else .error (str "no such file or directory")

/-- A binding with one reference to a Secret. -/
def keyConfig : KernelSealConfig where
  secrets :=
    [{ selector := { binary := str "node" }
       secretRefs :=
        [{ name := str "API_TOKEN"
           source := { secretKeyRef := some ⟨str "payments", str "token"⟩ } }] }]

/-- The token of the agent's service account is delivered in place of a Secret that is
not mounted, and a variable that is set but empty is unresolved. -/
theorem service_account_token_delivered :
    (named { secretKeyRef := some ⟨str "payments", str "token"⟩ }).holds accountWorld = none ∧
      (loadSecrets Unicode.ascii accountWorld.host keyConfig).map Binding.secrets =
        [[⟨str "API_TOKEN", str "jwt"⟩]] ∧
      (Source.envVar (str "HOME")).content { accountWorld with env := fun _ => some [] } ≠
        (Source.envVar (str "HOME")).holds { accountWorld with env := fun _ => some [] } :=
  ⟨by decide +kernel, by decide +kernel, by decide +kernel⟩

end KernelSeal.Resolution
