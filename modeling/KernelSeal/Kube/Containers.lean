import KernelSeal.Cgroup.Attribution

/-!
# Container names

The API server reports the ID of a container behind the scheme of its runtime, and
the kernel has it in a cgroup path, behind a prefix of the runtime and before a
suffix of the driver.  `toPod` and `ParsePod` reduce both to the same digits, so
that selecting a container by name selects the processes of that container.
-/

namespace KernelSeal.Containers

open KernelSeal.Text
open KernelSeal.Registry
open KernelSeal.ParsePod
open KernelSeal.Attribution
open KernelSeal.Kube

/-! ## Identifiers of the API server -/

/-- A status writes the container's ID bare or behind a scheme. -/
inductive WritesID : GoString → GoString → Prop
  | bare {id : GoString} (hlength : 12 ≤ id.length ∧ id.length ≤ 64)
      (hdigits : id.all isHex = true) : WritesID id id
  | schemed {id : GoString} (scheme : GoString) (hscheme : ¬ str "://" <:+: scheme)
      (hlength : 12 ≤ id.length ∧ id.length ≤ 64) (hdigits : id.all isHex = true) :
      WritesID (scheme ++ (str "://" ++ id)) id

section WritesID

variable {written id : GoString}

theorem lower_ne_nil (hlength : 12 ≤ id.length) : id.map lowerByte ≠ [] := by
  intro hnil
  rw [List.map_eq_nil_iff.1 hnil] at hlength
  exact absurd hlength (by decide)

theorem WritesID.lower_ne_nil (hwrites : WritesID written id) : id.map lowerByte ≠ [] := by
  cases hwrites with
  | bare hlength => exact Containers.lower_ne_nil hlength.1
  | schemed scheme hscheme hlength => exact Containers.lower_ne_nil hlength.1

/-- There is no colon among hexadecimal digits. -/
theorem not_scheme_infix_of_hex (hdigits : id.all isHex = true) : ¬ str "://" <:+: id := by
  intro hinfix
  have hcolon : colon ∈ id := hinfix.subset (by decide)
  exact absurd (List.all_eq_true.1 hdigits colon hcolon) (by decide)

/-- The separator cannot begin inside a scheme that does not contain it. -/
theorem not_prefix_drop_scheme {scheme rest : GoString} (hscheme : ¬ str "://" <:+: scheme)
    {position : ℕ} (hposition : position < scheme.length) :
    ¬ str "://" <+: (scheme ++ (str "://" ++ rest)).drop position := by
  rw [List.drop_append_of_le_length hposition.le, show str "://" = [58, 47, 47] by decide]
  have hne : scheme.drop position ≠ [] := by
    rwa [Ne, List.drop_eq_nil_iff, not_le]
  have hsuffix : scheme.drop position <:+ scheme := List.drop_suffix _ _
  rcases hdrop : scheme.drop position with _ | ⟨first, _ | ⟨second, _ | ⟨third, more⟩⟩⟩
  · exact absurd hdrop hne
  · simp
  · simp
  · intro hstarts
    simp only [List.cons_append, List.cons_prefix_cons] at hstarts
    obtain ⟨rfl, rfl, rfl, _⟩ := hstarts
    refine hscheme (List.IsInfix.trans ?_ hsuffix.isInfix)
    rw [hdrop]
    exact List.IsPrefix.isInfix ⟨more, rfl⟩

/-- What is left of an ID is its digits in lower case. -/
theorem WritesID.strip_eq (unicode : Unicode) (hwrites : WritesID written id) :
    stripRuntimePrefix unicode written = id.map lowerByte := by
  cases hwrites with
  | bare hlength hdigits =>
      rw [stripRuntimePrefix, index_eq_none (not_scheme_infix_of_hex hdigits)]
      exact toLower_of_hex unicode hdigits
  | schemed scheme hscheme hlength hdigits =>
      rw [stripRuntimePrefix, index_eq_some fun _ => not_prefix_drop_scheme hscheme]
      have hlength : (scheme ++ str "://").length = scheme.length + 3 := List.length_append
      dsimp only
      rw [← List.append_assoc, List.drop_left' hlength]
      exact toLower_of_hex unicode hdigits

end WritesID

/-! ## Pod objects -/

/-- The statuses `toPod` goes through. -/
def statuses (object : PodObject) : List ContainerStatus :=
  object.containerStatuses ++ object.initContainerStatuses ++ object.ephemeralContainerStatuses

/-- The API server's record of a pod: a container has an ID of its own as soon as
it has been started. -/
structure Reported (object : PodObject) (uuid : Uuid) : Prop where
  uid : object.uid = uuid.dashed
  ids : ∀ status ∈ statuses object,
    status.containerID = [] ∨ ∃ id, WritesID status.containerID id
  distinct : (statuses object).Pairwise fun first second => ∀ left right,
    WritesID first.containerID left → WritesID second.containerID right →
      left.map lowerByte ≠ right.map lowerByte

/-- A status with that ID, ignoring case, and that name. -/
def HasContainer (object : PodObject) (id name : GoString) : Prop :=
  ∃ status ∈ statuses object, ∃ written,
    WritesID status.containerID written ∧ written.map lowerByte = id.map lowerByte ∧
      status.name = name

section Index

variable {unicode : Unicode}

/-- The status is indexed under the key. -/
def Indexes (unicode : Unicode) (status : ContainerStatus) (key name : GoString) : Prop :=
  stripRuntimePrefix unicode status.containerID = key ∧ key ≠ [] ∧
    status.name = name ∧ name ≠ []

/-- Where no two statuses share a key, each is found under its own. -/
theorem lookup_foldl_addContainer {entries : List ContainerStatus}
    (hdistinct : entries.Pairwise fun first second =>
      stripRuntimePrefix unicode first.containerID ≠ [] →
      stripRuntimePrefix unicode first.containerID ≠ stripRuntimePrefix unicode second.containerID)
    (key name : GoString) :
    (entries.foldl (addContainer unicode) ∅).lookup key = some name ↔
      ∃ status ∈ entries, Indexes unicode status key name := by
  -- From the last status, which overwrites what was there.
  induction entries using List.reverseRecOn with
  | nil => simp
  | append_singleton entries last ih =>
      obtain ⟨hentries, -, hlast⟩ := List.pairwise_append.1 hdistinct
      have hiff := ih hentries
      simp only [List.mem_singleton, forall_eq] at hlast
      have hsplit : (∃ status ∈ entries ++ [last], Indexes unicode status key name) ↔
          (∃ status ∈ entries, Indexes unicode status key name) ∨
            Indexes unicode last key name := by
        simp [List.mem_append, or_and_right, exists_or]
      rw [hsplit, List.foldl_append, List.foldl_cons, List.foldl_nil, addContainer]
      split_ifs with hskipped
      · rw [hiff, or_iff_left]
        rintro ⟨rfl, hkey, rfl, hname⟩
        exact hskipped.elim hkey hname
      · rw [not_or] at hskipped
        by_cases hkey : stripRuntimePrefix unicode last.containerID = key
        · subst hkey
          rw [Finmap.lookup_insert, Option.some.injEq, or_iff_right]
          · exact ⟨fun hname => ⟨rfl, hskipped.1, hname, hname ▸ hskipped.2⟩,
              fun hindexes => hindexes.2.2.1⟩
          · rintro ⟨status, hstatus, hsame, hne, -⟩
            exact hlast status hstatus (hsame ▸ hne) hsame
        · rw [Finmap.lookup_insert_of_ne _ (Ne.symm hkey), hiff, or_iff_left]
          exact fun hindexes => hkey hindexes.1

end Index

section Reported

variable {unicode : Unicode} {object : PodObject} {uuid : Uuid}

theorem strip_nil : stripRuntimePrefix unicode [] = [] := rfl

variable (unicode) in
/-- A key is the ID of the status. -/
theorem Reported.writes_of_strip (hreported : Reported object uuid) {status : ContainerStatus}
    (hstatus : status ∈ statuses object)
    (hne : stripRuntimePrefix unicode status.containerID ≠ []) :
    ∃ id, WritesID status.containerID id ∧
      stripRuntimePrefix unicode status.containerID = id.map lowerByte := by
  rcases hreported.ids status hstatus with hnone | ⟨id, hwrites⟩
  · rw [hnone] at hne
    exact absurd strip_nil hne
  · exact ⟨id, hwrites, hwrites.strip_eq unicode⟩

theorem Reported.pairwise_strip (hreported : Reported object uuid) :
    (statuses object).Pairwise fun first second =>
      stripRuntimePrefix unicode first.containerID ≠ [] →
      stripRuntimePrefix unicode first.containerID ≠
        stripRuntimePrefix unicode second.containerID := by
  refine hreported.distinct.imp_of_mem fun {first second} hfirst hsecond hdistinct hne hsame => ?_
  obtain ⟨left, hleft, hleftkey⟩ := hreported.writes_of_strip unicode hfirst hne
  obtain ⟨right, hright, hrightkey⟩ := hreported.writes_of_strip unicode hsecond (hsame ▸ hne)
  exact hdistinct left right hleft hright (hleftkey.symm.trans (hsame.trans hrightkey))

variable (unicode) in
/-- The map of a pod's containers says exactly what the statuses say. -/
theorem Reported.lookup_containers (hreported : Reported object uuid) {id name : GoString}
    (hid : id.map lowerByte ≠ []) (hname : name ≠ []) :
    (object.toPod unicode).containers.lookup (id.map lowerByte) = some name ↔
      HasContainer object id name := by
  refine (lookup_foldl_addContainer hreported.pairwise_strip _ _).trans ?_
  constructor
  · rintro ⟨status, hstatus, hkey, hne, hnamed, -⟩
    obtain ⟨written, hwrites, hstrip⟩ :=
      hreported.writes_of_strip unicode hstatus (hkey ▸ hne)
    exact ⟨status, hstatus, written, hwrites, hstrip.symm.trans hkey, hnamed⟩
  · rintro ⟨status, hstatus, written, hwrites, hsame, hnamed⟩
    exact ⟨status, hstatus, (hwrites.strip_eq unicode).trans hsame, hid, hnamed, hname⟩

end Reported

/-! ## Callers -/

/-- The caller `Identify` answers with for a process at the path, once the pod has
been found. -/
def callerAt (unicode : Unicode) (object : PodObject) (path : GoString) : Caller :=
  { (placed unicode path).caller with pod := some (object.toPod unicode) }

/-- A selector on a container asks for the caller's container by name. -/
theorem lookup_of_admits {selector : Selector} {caller : Caller} {pod : Pod}
    (hselector : selector.container ≠ []) (hpod : caller.pod = some pod)
    (hadmits : (selector.admits caller).1 = true) :
    caller.containerID ≠ [] ∧
      pod.containers.lookup caller.containerID = some selector.container := by
  obtain ⟨hid, pod', hpod', hindex⟩ := ((admits_iff selector caller).1 hadmits).2.2.2 hselector
  obtain rfl : pod = pod' := Option.some.inj (hpod.symm.trans hpod')
  exact ⟨hid, lookup_of_index_eq hindex hselector⟩

theorem admits_of_lookup {name : GoString} {caller : Caller} {pod : Pod}
    (hpod : caller.pod = some pod) (hid : caller.containerID ≠ [])
    (hlookup : pod.containers.lookup caller.containerID = some name) :
    (Selector.admits { container := name } caller).1 = true := by
  rw [admits_iff]
  refine ⟨fun hpath => absurd rfl hpath, fun hnamespace => absurd rfl hnamespace, ?_,
    fun _ => ⟨hid, pod, hpod, index_eq_of_lookup hlookup⟩⟩
  intro key value hvalue
  simp at hvalue

/-- For a process of a pod, wherever the kubelet's driver puts it: it is the pod's,
a selector on a container admits it exactly if the API server gives the container
with its ID that name, and none admits it if the path names no container or one
without a named status. -/
theorem container_names_meet (unicode : Unicode) (object : PodObject) (uuid : Uuid)
    (leading below : List GoString) (podSegment : GoString) (hreported : Reported object uuid)
    (hleading : ∀ segment ∈ leading, slash ∉ segment ∧ ¬ NamesPod segment)
    (hspelling : KubeletSpelling uuid podSegment) (hbelow : ∀ segment ∈ below, slash ∉ segment) :
    let caller := callerAt unicode object (join (leading ++ podSegment :: below) [slash])
    caller.podUID = object.uid.map lowerByte ∧
    (∀ (segment id : GoString) (rest : List GoString), below = segment :: rest →
      ContainerShaped segment id → ∀ name ≠ [],
      ((Selector.admits { container := name } caller).1 = true ↔ HasContainer object id name)) ∧
    (∀ selector : Selector, selector.container ≠ [] →
      (NamesContainer below [] ∨
        ∃ segment id rest, below = segment :: rest ∧ ContainerShaped segment id ∧
          ∀ name ≠ [], ¬ HasContainer object id name) →
      (selector.admits caller).1 = false) := by
  intro caller
  have hparse {container : GoString} (hnames : NamesContainer below container) :
      caller.podUID = uuid.dashed.map lowerByte ∧ caller.containerID = container := by
    have hids := parsePod_join unicode hleading hspelling hbelow hnames
    exact ⟨congrArg Prod.fst hids, congrArg Prod.snd hids⟩
  have hpod : caller.pod = some (object.toPod unicode) := rfl
  have hlower {segment id : GoString} (hshaped : ContainerShaped segment id) :
      id.map lowerByte ≠ [] := lower_ne_nil hshaped.digits.1
  refine ⟨?_, ?_, ?_⟩
  · obtain ⟨container, hnames⟩ := exists_namesContainer below
    rw [(hparse hnames).1, hreported.uid]
  · rintro segment id rest rfl hshaped name hname
    have hid := (hparse (NamesContainer.named rest hshaped)).2
    rw [← hreported.lookup_containers unicode (hlower hshaped) hname, ← hid]
    constructor
    · intro hadmits
      exact (@lookup_of_admits { container := name } caller _ hname hpod hadmits).2
    · exact admits_of_lookup hpod (hid ▸ hlower hshaped)
  · intro selector hselector hnone
    rw [← Bool.not_eq_true]
    intro hadmits
    obtain ⟨hne, hlookup⟩ := lookup_of_admits hselector hpod hadmits
    rcases hnone with hnames | ⟨segment, id, rest, rfl, hshaped, hunnamed⟩
    · exact hne (hparse hnames).2
    · rw [(hparse (NamesContainer.named rest hshaped)).2,
        hreported.lookup_containers unicode (hlower hshaped) hselector] at hlookup
      exact hunnamed _ hselector hlookup

/-- A pod with a container that has started and one that has not. -/
def shopObject : PodObject where
  uid := checkout.dashed
  containerStatuses := [⟨str "app", str "containerd://0123456789AB"⟩]
  ephemeralContainerStatuses := [⟨str "debug", []⟩]

theorem shopObject_reported : Reported shopObject checkout where
  uid := rfl
  ids := by
    simp only [statuses, shopObject, List.cons_append, List.nil_append, List.append_nil,
      List.forall_mem_cons]
    refine ⟨Or.inr ⟨str "0123456789AB", ?_⟩, Or.inl trivial, by simp⟩
    exact WritesID.schemed (str "containerd") (by decide) (by decide) (by decide)
  distinct := by
    have hempty {id : GoString} : ¬ WritesID [] id := by
      intro hwrites
      have hstrip := hwrites.strip_eq Unicode.ascii
      exact hwrites.lower_ne_nil (hstrip.symm.trans strip_nil)
    simp only [statuses, shopObject, List.cons_append, List.nil_append, List.append_nil,
      List.pairwise_cons, List.mem_singleton, forall_eq, List.not_mem_nil, false_implies,
      implies_true, List.Pairwise.nil, and_true]
    exact fun left right _ hright => absurd hright hempty

theorem shop_container_admitted :
    (Selector.admits { container := str "app" }
      (callerAt Unicode.ascii shopObject
        (join ([[], str "kubepods"] ++ (str "pod" ++ checkout.dashed) ::
          [str "crio-0123456789ab.scope", str "init"]) [slash]))).1 = true := by
  have hleading : ∀ segment ∈ [[], str "kubepods"], slash ∉ segment ∧
      podUIDSegment.findSubmatch segment = none := by
    decide +kernel
  have hshaped : ContainerShaped (str "crio-0123456789ab.scope") (str "0123456789ab") :=
    ⟨by decide, str "crio-", str ".scope", by decide, by decide, Or.inr rfl⟩
  have hwrites : WritesID (str "containerd://0123456789AB") (str "0123456789AB") :=
    WritesID.schemed (str "containerd") (by decide) (by decide) (by decide)
  exact ((container_names_meet Unicode.ascii shopObject checkout _ _ _ shopObject_reported
    (fun segment hsegment => ⟨(hleading segment hsegment).1,
      findSubmatch_eq_none_iff.1 (hleading segment hsegment).2⟩)
    KubeletSpelling.cgroupfs (by decide)).2.1 _ _ _ rfl hshaped (str "app") (by decide)).2
    ⟨_, List.mem_cons_self, _, hwrites, by decide, rfl⟩

end KernelSeal.Containers
