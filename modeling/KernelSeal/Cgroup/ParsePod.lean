import KernelSeal.Core.Regex
import KernelSeal.Go.Text

/-!
# Pods in cgroup paths

This file models `ParsePod` of `internal/cgroup`.  The two regular expressions
are written as in the source.  Their matches are determined by a grammar of pod
and container segments, in which the captured text is unique, and the scan over
the segments of a path takes the first pod segment whatever follows below it.
-/

namespace KernelSeal.ParsePod

open KernelSeal.Text
open KernelSeal.Regex

/-! ## The expressions -/

def dash : Byte := 45

def underscore : Byte := 95

/-- `[0-9a-fA-F]`. -/
def isHex (byte : Byte) : Bool :=
  (48 ≤ byte ∧ byte ≤ 57) ∨ (97 ≤ byte ∧ byte ≤ 102) ∨ (65 ≤ byte ∧ byte ≤ 70)

/-- `[-_]`. -/
def isSeparator (byte : Byte) : Bool := byte = dash ∨ byte = underscore

def uuidPattern : Regex Byte :=
  seq (exactly 8 (set isHex)) <| seq (set isSeparator) <|
  seq (exactly 4 (set isHex)) <| seq (set isSeparator) <|
  seq (exactly 4 (set isHex)) <| seq (set isSeparator) <|
  seq (exactly 4 (set isHex)) <| seq (set isSeparator) <|
  exactly 12 (set isHex)

/-- `podUIDSegment`. -/
def podUIDSegment : Regex Byte :=
  seq (alt start (literal [dash])) <| seq (literal (str "pod")) <| seq (group uuidPattern) <|
  seq (opt (literal (str ".slice"))) stop

/-- The optional prefix of a container runtime. -/
def runtimePattern : Regex Byte :=
  opt <| alt (literal (str "cri-containerd-")) <| alt (literal (str "crio-")) <|
  alt (literal (str "docker-")) (literal (str "libpod-"))

/-- `containerIDSegment`. -/
def containerIDSegment : Regex Byte :=
  seq start <| seq runtimePattern <|
  seq (group (between 12 64 (set isHex))) <| seq (opt (literal (str ".scope"))) stop

/-! ## The scan -/

section Scan

variable (unicode : Unicode)

/-- The container named by the segment directly below the pod. -/
def containerBelow : List GoString → GoString
  | [] => []
  | segment :: _ =>
      match containerIDSegment.findSubmatch segment with
      | none => []
      | some id => toLower unicode id

/-- The loop of `ParsePod` over the segments. -/
def scanSegments : List GoString → GoString × GoString
  | [] => ([], [])
  | segment :: rest =>
      match podUIDSegment.findSubmatch segment with
      | none => scanSegments rest
      | some uid => (toLower unicode (replaceAll uid underscore dash), containerBelow unicode rest)

/-- `ParsePod`: the pod UID and the container ID. -/
def parsePod (cgroupPath : GoString) : GoString × GoString :=
  scanSegments unicode (split cgroupPath slash)

end Scan

/-! ## The grammar -/

/-- The five groups of hexadecimal digits of a UUID. -/
structure Uuid where
  first : GoString
  second : GoString
  third : GoString
  fourth : GoString
  fifth : GoString
  first_hex : first.length = 8 ∧ first.all isHex = true
  second_hex : second.length = 4 ∧ second.all isHex = true
  third_hex : third.length = 4 ∧ third.all isHex = true
  fourth_hex : fourth.length = 4 ∧ fourth.all isHex = true
  fifth_hex : fifth.length = 12 ∧ fifth.all isHex = true

/-- The groups joined by separators. -/
def Uuid.spell (uuid : Uuid) (one two three four : Byte) : GoString :=
  uuid.first ++ one :: (uuid.second ++ two :: (uuid.third ++ three ::
    (uuid.fourth ++ four :: uuid.fifth)))

def Uuid.dashed (uuid : Uuid) : GoString := uuid.spell dash dash dash dash

def Uuid.underscored (uuid : Uuid) : GoString :=
  uuid.spell underscore underscore underscore underscore

/-- The text is a spelling of the UUID with separators of either kind. -/
def Spells (uuid : Uuid) (text : GoString) : Prop :=
  ∃ one two three four, isSeparator one = true ∧ isSeparator two = true ∧
    isSeparator three = true ∧ isSeparator four = true ∧ text = uuid.spell one two three four

/-- The segment names the pod with this UUID, spelled so. -/
structure PodShaped (segment : GoString) (uuid : Uuid) (text : GoString) : Prop where
  spells : Spells uuid text
  shape : ∃ lead tail, segment = lead ++ (str "pod" ++ (text ++ tail)) ∧
    (lead = [] ∨ ∃ front, lead = front ++ [dash]) ∧ (tail = [] ∨ tail = str ".slice")

/-- The prefixes of container runtimes, and none. -/
def runtimePrefixes : List GoString :=
  [[], str "cri-containerd-", str "crio-", str "docker-", str "libpod-"]

/-- The segment names the container with this ID. -/
structure ContainerShaped (segment id : GoString) : Prop where
  digits : 12 ≤ id.length ∧ id.length ≤ 64 ∧ id.all isHex = true
  shape : ∃ lead tail, segment = lead ++ (id ++ tail) ∧ lead ∈ runtimePrefixes ∧
    (tail = [] ∨ tail = str ".scope")

/-! ## What the expressions match -/

section Match

variable {front word back : GoString} {captured : Option GoString}

theorem captures_uuidPattern_iff :
    uuidPattern.Captures front word back captured ↔
      (∃ uuid, Spells uuid word) ∧ captured = none := by
  rw [uuidPattern]
  simp only [captures_seq_iff _ fun _ _ _ _ => captures_exactly_set_iff, captures_set_seq_iff,
    captures_exactly_set_iff]
  constructor
  · rintro ⟨first, _, rfl, hfirst, one, _, rfl, hone, second, _, rfl, hsecond, two, _, rfl, htwo,
      third, _, rfl, hthird, three, _, rfl, hthree, fourth, _, rfl, hfourth, four, fifth, rfl,
      hfour, hfifth, hcaptured⟩
    exact ⟨⟨⟨first, second, third, fourth, fifth, hfirst, hsecond, hthird, hfourth, hfifth⟩,
      one, two, three, four, hone, htwo, hthree, hfour, rfl⟩, hcaptured⟩
  · rintro ⟨⟨uuid, one, two, three, four, hone, htwo, hthree, hfour, rfl⟩, hcaptured⟩
    exact ⟨uuid.first, _, rfl, uuid.first_hex, one, _, rfl, hone, uuid.second, _, rfl,
      uuid.second_hex, two, _, rfl, htwo, uuid.third, _, rfl, uuid.third_hex, three, _, rfl,
      hthree, uuid.fourth, _, rfl, uuid.fourth_hex, four, uuid.fifth, rfl, hfour, uuid.fifth_hex,
      hcaptured⟩

/-- A match of the pod expression ends the segment and captures a spelled UUID. -/
theorem captures_podUIDSegment_iff :
    podUIDSegment.Captures front word back captured ↔
      ∃ lead text tail, word = lead ++ (str "pod" ++ (text ++ tail)) ∧
        ((front = [] ∧ lead = []) ∨ lead = [dash]) ∧ (∃ uuid, Spells uuid text) ∧
        ((tail = [] ∨ tail = str ".slice") ∧ back = []) ∧ captured = some text := by
  rw [podUIDSegment, captures_seq_iff fun front lead => (front = [] ∧ lead = []) ∨ lead = [dash]]
  · simp only [captures_seq_iff _ fun _ _ _ _ => captures_literal_iff,
      captures_group_seq_iff _ fun _ _ _ _ => captures_opt_literal_stop_iff,
      captures_uuidPattern_iff]
    constructor
    · rintro ⟨lead, _, rfl, hlead, _, _, rfl, rfl, text, tail, rfl, ⟨_, huuid, _⟩, htail, hcaptured⟩
      exact ⟨lead, text, tail, rfl, hlead, huuid, htail, hcaptured⟩
    · rintro ⟨lead, text, tail, rfl, hlead, huuid, htail, hcaptured⟩
      exact ⟨lead, _, rfl, hlead, _, _, rfl, rfl, text, tail, rfl, ⟨none, huuid, rfl⟩, htail,
        hcaptured⟩
  · intro front word back captured
    rw [Captures, Captures, captures_literal_iff, or_and_right, and_assoc]

theorem captures_runtimePattern_iff :
    runtimePattern.Captures front word back captured ↔
      word ∈ runtimePrefixes ∧ captured = none := by
  simp only [runtimePattern, captures_opt_iff, Captures, captures_literal_iff, ← or_and_right,
    runtimePrefixes, List.mem_cons, List.not_mem_nil, or_false]
  rw [or_comm]

/-- A match of the container expression is the whole segment. -/
theorem captures_containerIDSegment_iff :
    containerIDSegment.Captures front word back captured ↔
      ∃ lead id tail, word = lead ++ (id ++ tail) ∧ front = [] ∧ lead ∈ runtimePrefixes ∧
        (12 ≤ id.length ∧ id.length ≤ 64 ∧ id.all isHex = true) ∧
        ((tail = [] ∨ tail = str ".scope") ∧ back = []) ∧ captured = some id := by
  rw [containerIDSegment, captures_seq_iff fun front word => front = [] ∧ word = []]
  · simp only [captures_seq_iff _ fun _ _ _ _ => captures_runtimePattern_iff,
      captures_group_seq_iff _ fun _ _ _ _ => captures_opt_literal_stop_iff,
      captures_between_set_iff (show 12 ≤ 64 by decide)]
    constructor
    · rintro ⟨_, _, rfl, ⟨rfl, rfl⟩, lead, _, rfl, hlead, id, tail, rfl, ⟨_, hid, _⟩, htail,
        hcaptured⟩
      exact ⟨lead, id, tail, rfl, rfl, hlead, hid, htail, hcaptured⟩
    · rintro ⟨lead, id, tail, rfl, rfl, hlead, hid, htail, hcaptured⟩
      exact ⟨[], _, rfl, ⟨rfl, rfl⟩, lead, _, rfl, hlead, id, tail, rfl, ⟨none, hid, rfl⟩, htail,
        hcaptured⟩
  · intro front word back captured
    rw [Captures, and_assoc]

end Match

/-! ## The captured text is unique -/

theorem Uuid.length_spell (uuid : Uuid) (one two three four : Byte) :
    (uuid.spell one two three four).length = 36 := by
  simp [Uuid.spell, uuid.first_hex.1, uuid.second_hex.1, uuid.third_hex.1, uuid.fourth_hex.1,
    uuid.fifth_hex.1]

/-- A spelled UUID ends in twelve hexadecimal digits. -/
theorem Spells.fifth_suffix {uuid : Uuid} {text : GoString} (hspells : Spells uuid text) :
    uuid.fifth <:+ text := by
  obtain ⟨one, two, three, four, _, _, _, _, rfl⟩ := hspells
  refine ⟨uuid.first ++ one :: (uuid.second ++ two :: (uuid.third ++ three ::
    (uuid.fourth ++ [four]))), ?_⟩
  simp [Uuid.spell]

theorem Spells.length_eq {uuid : Uuid} {text : GoString} (hspells : Spells uuid text) :
    text.length = 36 := by
  obtain ⟨one, two, three, four, _, _, _, _, rfl⟩ := hspells
  exact uuid.length_spell one two three four

/-- Hexadecimal digits do not end in a text that contains something else. -/
theorem not_suffix_of_hex {digits ending : GoString} (hdigits : digits.all isHex = true)
    (hending : ending.all isHex = false) : ¬ ending <:+ digits := by
  intro hsuffix
  have hall : ending.all isHex = true :=
    List.all_eq_true.2 fun byte hbyte => List.all_eq_true.1 hdigits byte (hsuffix.subset hbyte)
  rw [hending] at hall
  cases hall

/-- Nor does a text that ends in enough of them. -/
theorem not_suffix_of_hex_suffix {text digits ending : GoString} (hsuffix : digits <:+ text)
    (hdigits : digits.all isHex = true) (hlength : ending.length ≤ digits.length)
    (hending : ending.all isHex = false) : ¬ ending <:+ text := by
  intro htext
  exact not_suffix_of_hex hdigits hending (List.suffix_of_suffix_length_le htext hsuffix hlength)

/-- Two ways of cutting an optional ending off leave the same text, if neither
remainder ends in it. -/
theorem eq_of_append_ending {left right leftTail rightTail ending : GoString}
    (hleftTail : leftTail = [] ∨ leftTail = ending)
    (hrightTail : rightTail = [] ∨ rightTail = ending)
    (hleft : ¬ ending <:+ left) (hright : ¬ ending <:+ right)
    (heq : left ++ leftTail = right ++ rightTail) : left = right := by
  rcases hleftTail with rfl | rfl <;> rcases hrightTail with rfl | rfl
  · simpa using heq
  · rw [List.append_nil] at heq
    exact absurd ⟨right, heq.symm⟩ hleft
  · rw [List.append_nil] at heq
    exact absurd ⟨left, heq⟩ hright
  · exact List.append_cancel_right heq

theorem PodShaped.unique {segment left right : GoString} {leftUuid rightUuid : Uuid}
    (hleft : PodShaped segment leftUuid left) (hright : PodShaped segment rightUuid right) :
    left = right := by
  have hending {text lead : GoString} {uuid : Uuid} (hspells : Spells uuid text) :
      ¬ str ".slice" <:+ lead ++ str "pod" ++ text :=
    not_suffix_of_hex_suffix (hspells.fifth_suffix.trans (List.suffix_append _ _))
      uuid.fifth_hex.2 (by rw [uuid.fifth_hex.1]; decide) (by decide)
  obtain ⟨leftLead, leftTail, hleftEq, _, hleftTail⟩ := hleft.shape
  obtain ⟨rightLead, rightTail, hrightEq, _, hrightTail⟩ := hright.shape
  have heq : (leftLead ++ str "pod" ++ left) ++ leftTail =
      (rightLead ++ str "pod" ++ right) ++ rightTail := by
    simpa using hleftEq.symm.trans hrightEq
  have hbody := eq_of_append_ending hleftTail hrightTail (hending hleft.spells)
    (hending hright.spells) heq
  exact (List.append_inj' hbody (by rw [hleft.spells.length_eq, hright.spells.length_eq])).2

/-- After a runtime prefix the ID is all the hexadecimal digits at the end. -/
theorem rtakeWhile_runtime {lead id : GoString} (hlead : lead ∈ runtimePrefixes)
    (hid : id.all isHex = true) : (lead ++ id).rtakeWhile isHex = id := by
  have hstop : ∀ lead ∈ runtimePrefixes, lead.reverse.takeWhile isHex = [] := by
    decide
  rw [List.rtakeWhile, List.reverse_append, List.takeWhile_append_of_pos, hstop lead hlead,
    List.append_nil, List.reverse_reverse]
  intro byte hbyte
  exact List.all_eq_true.1 hid byte (List.mem_reverse.1 hbyte)

theorem ContainerShaped.unique {segment left right : GoString}
    (hleft : ContainerShaped segment left) (hright : ContainerShaped segment right) :
    left = right := by
  have hending {id lead : GoString} (hlength : 12 ≤ id.length) (hid : id.all isHex = true) :
      ¬ str ".scope" <:+ lead ++ id :=
    not_suffix_of_hex_suffix (List.suffix_append _ _) hid
      (le_trans (by decide) hlength) (by decide)
  obtain ⟨leftLead, leftTail, hleftEq, hleftLead, hleftTail⟩ := hleft.shape
  obtain ⟨rightLead, rightTail, hrightEq, hrightLead, hrightTail⟩ := hright.shape
  have heq : (leftLead ++ left) ++ leftTail = (rightLead ++ right) ++ rightTail := by
    simpa using hleftEq.symm.trans hrightEq
  have hbody := eq_of_append_ending hleftTail hrightTail
    (hending hleft.digits.1 hleft.digits.2.2) (hending hright.digits.1 hright.digits.2.2) heq
  rw [← rtakeWhile_runtime hleftLead hleft.digits.2.2, hbody,
    rtakeWhile_runtime hrightLead hright.digits.2.2]

/-! ## What is found in a segment -/

/-- The pod expression finds the spelled UUID of a pod segment, and nothing in
any other segment. -/
theorem findSubmatch_pod_iff {segment text : GoString} :
    podUIDSegment.findSubmatch segment = some text ↔ ∃ uuid, PodShaped segment uuid text := by
  refine findSubmatch_eq_some_iff (fun text => ∃ uuid, PodShaped segment uuid text)
    (fun captured => ?_) fun ⟨_, hleft⟩ ⟨_, hright⟩ => hleft.unique hright
  simp only [captures_podUIDSegment_iff]
  constructor
  · rintro ⟨front, _, _, rfl, lead, text, tail, rfl, hlead, ⟨uuid, hspells⟩, ⟨htail, rfl⟩, rfl⟩
    refine ⟨text, ⟨uuid, hspells, front ++ lead, tail, by simp, ?_, htail⟩, rfl⟩
    rcases hlead with ⟨rfl, rfl⟩ | rfl
    · exact Or.inl rfl
    · exact Or.inr ⟨front, rfl⟩
  · rintro ⟨text, ⟨uuid, hspells, lead, tail, rfl, hlead, htail⟩, rfl⟩
    rcases hlead with rfl | ⟨front, rfl⟩
    · exact ⟨[], _, [], by simp, [], text, tail, rfl, Or.inl ⟨rfl, rfl⟩, ⟨uuid, hspells⟩,
        ⟨htail, rfl⟩, rfl⟩
    · exact ⟨front, _, [], by simp, [dash], text, tail, rfl, Or.inr rfl, ⟨uuid, hspells⟩,
        ⟨htail, rfl⟩, rfl⟩

theorem findSubmatch_container_iff {segment id : GoString} :
    containerIDSegment.findSubmatch segment = some id ↔ ContainerShaped segment id := by
  refine findSubmatch_eq_some_iff (ContainerShaped segment) (fun captured => ?_)
    ContainerShaped.unique
  simp only [captures_containerIDSegment_iff]
  constructor
  · rintro ⟨_, _, _, rfl, lead, id, tail, rfl, rfl, hlead, hid, ⟨htail, rfl⟩, rfl⟩
    exact ⟨id, ⟨hid, lead, tail, by simp, hlead, htail⟩, rfl⟩
  · rintro ⟨id, ⟨hid, lead, tail, rfl, hlead, htail⟩, rfl⟩
    exact ⟨[], _, [], by simp, lead, id, tail, rfl, rfl, hlead, hid, ⟨htail, rfl⟩, rfl⟩

/-! ## Normalisation -/

theorem lt_of_isHex {byte : Byte} (hhex : isHex byte = true) : byte < 0x80 := by
  have hranges : (48 ≤ byte.val ∧ byte.val ≤ 57) ∨ (97 ≤ byte.val ∧ byte.val ≤ 102) ∨
      (65 ≤ byte.val ∧ byte.val ≤ 70) := of_decide_eq_true hhex
  have hval : byte.val < 0x80 := by omega
  exact hval

theorem toLower_of_hex (unicode : Unicode) {digits : GoString}
    (hdigits : digits.all isHex = true) : toLower unicode digits = digits.map lowerByte :=
  toLower_of_ascii unicode fun byte hbyte => lt_of_isHex (List.all_eq_true.1 hdigits byte hbyte)

theorem replaceAll_of_hex {digits : GoString} (hdigits : digits.all isHex = true) :
    replaceAll digits underscore dash = digits := by
  have hkeep : ∀ byte ∈ digits, (if byte = underscore then dash else byte) = byte := by
    intro byte hbyte
    refine if_neg fun heq => ?_
    have hhex := List.all_eq_true.1 hdigits byte hbyte
    rw [heq] at hhex
    cases hhex
  rw [replaceAll, List.map_congr_left hkeep, List.map_id']

theorem replaceAll_separator {byte : Byte} (hbyte : isSeparator byte = true) :
    (if byte = underscore then dash else byte) = dash := by
  have hcases : byte = dash ∨ byte = underscore := of_decide_eq_true hbyte
  rcases hcases with rfl | rfl
  · rfl
  · rfl

/-- Whatever the separators were, the UUID is dashed afterwards. -/
theorem Spells.replaceAll_eq {uuid : Uuid} {text : GoString} (hspells : Spells uuid text) :
    replaceAll text underscore dash = uuid.dashed := by
  obtain ⟨one, two, three, four, hone, htwo, hthree, hfour, rfl⟩ := hspells
  have happend (left : GoString) (byte : Byte) (right : GoString) :
      replaceAll (left ++ byte :: right) underscore dash =
        replaceAll left underscore dash ++ (if byte = underscore then dash else byte) ::
          replaceAll right underscore dash := by
    rw [replaceAll, List.map_append, List.map_cons]
    rfl
  rw [Uuid.spell, happend, happend, happend, happend, replaceAll_separator hone,
    replaceAll_separator htwo, replaceAll_separator hthree, replaceAll_separator hfour,
    replaceAll_of_hex uuid.first_hex.2, replaceAll_of_hex uuid.second_hex.2,
    replaceAll_of_hex uuid.third_hex.2, replaceAll_of_hex uuid.fourth_hex.2,
    replaceAll_of_hex uuid.fifth_hex.2]
  rfl

theorem Uuid.toLower_dashed (unicode : Unicode) (uuid : Uuid) :
    toLower unicode uuid.dashed = uuid.dashed.map lowerByte := by
  refine toLower_of_ascii unicode fun byte hbyte => ?_
  have hgroup {digits : GoString} (hdigits : digits.all isHex = true) (hmem : byte ∈ digits) :
      byte < 0x80 := lt_of_isHex (List.all_eq_true.1 hdigits byte hmem)
  simp only [Uuid.dashed, Uuid.spell, List.mem_append, List.mem_cons] at hbyte
  rcases hbyte with hmem | rfl | hmem | rfl | hmem | rfl | hmem | rfl | hmem
  · exact hgroup uuid.first_hex.2 hmem
  · decide
  · exact hgroup uuid.second_hex.2 hmem
  · decide
  · exact hgroup uuid.third_hex.2 hmem
  · decide
  · exact hgroup uuid.fourth_hex.2 hmem
  · decide
  · exact hgroup uuid.fifth_hex.2 hmem

/-! ## The result -/

/-- The segments below a pod name this container; the text is empty if they name
none. -/
inductive NamesContainer : List GoString → GoString → Prop
  | absent : NamesContainer [] []
  | named {segment id : GoString} (rest : List GoString) (hshaped : ContainerShaped segment id) :
      NamesContainer (segment :: rest) (id.map lowerByte)
  | other {segment : GoString} (rest : List GoString)
      (hother : ∀ id, ¬ ContainerShaped segment id) : NamesContainer (segment :: rest) []

theorem NamesContainer.containerBelow_eq (unicode : Unicode) {below : List GoString}
    {container : GoString} (hnames : NamesContainer below container) :
    containerBelow unicode below = container := by
  cases hnames with
  | absent => rfl
  | named rest hshaped =>
      rw [containerBelow, findSubmatch_container_iff.2 hshaped]
      exact toLower_of_hex unicode hshaped.digits.2.2
  | @other segment rest hother =>
      have hnone : containerIDSegment.findSubmatch segment = none :=
        Option.eq_none_iff_forall_ne_some.2 fun id hid =>
          hother id (findSubmatch_container_iff.1 hid)
      rw [containerBelow, hnone]

/-- Every list of segments names a container or none. -/
theorem exists_namesContainer (below : List GoString) :
    ∃ container, NamesContainer below container := by
  cases below with
  | nil => exact ⟨[], NamesContainer.absent⟩
  | cons segment rest =>
      by_cases hshaped : ∃ id, ContainerShaped segment id
      · obtain ⟨id, hshaped⟩ := hshaped
        exact ⟨id.map lowerByte, NamesContainer.named rest hshaped⟩
      · exact ⟨[], NamesContainer.other rest (not_exists.1 hshaped)⟩

/-- The segment is pod-shaped. -/
def NamesPod (segment : GoString) : Prop := ∃ uuid text, PodShaped segment uuid text

theorem findSubmatch_eq_none_iff {segment : GoString} :
    podUIDSegment.findSubmatch segment = none ↔ ¬ NamesPod segment := by
  rw [Option.eq_none_iff_forall_ne_some]
  constructor
  · rintro hnone ⟨uuid, text, hshaped⟩
    exact hnone text (findSubmatch_pod_iff.2 ⟨uuid, hshaped⟩)
  · intro hnot text htext
    obtain ⟨uuid, hshaped⟩ := findSubmatch_pod_iff.1 htext
    exact hnot ⟨uuid, text, hshaped⟩

/-- What stands above the pod does not matter. -/
theorem scanSegments_append (unicode : Unicode) {leading : List GoString}
    (hleading : ∀ segment ∈ leading, ¬ NamesPod segment) (segments : List GoString) :
    scanSegments unicode (leading ++ segments) = scanSegments unicode segments := by
  induction leading with
  | nil => rfl
  | cons first leading ih =>
      obtain ⟨hfirst, hleading⟩ := List.forall_mem_cons.1 hleading
      rw [List.cons_append, scanSegments, findSubmatch_eq_none_iff.2 hfirst]
      exact ih hleading

/-- The first pod segment decides, whatever is above and below it. -/
theorem scanSegments_eq (unicode : Unicode) {leading below : List GoString}
    {segment text container : GoString} {uuid : Uuid}
    (hleading : ∀ segment ∈ leading, ¬ NamesPod segment) (hshaped : PodShaped segment uuid text)
    (hnames : NamesContainer below container) :
    scanSegments unicode (leading ++ segment :: below) =
      (uuid.dashed.map lowerByte, container) := by
  rw [scanSegments_append unicode hleading, scanSegments,
    findSubmatch_pod_iff.2 ⟨uuid, hshaped⟩]
  change (toLower unicode (replaceAll text underscore dash), containerBelow unicode below) = _
  rw [hshaped.spells.replaceAll_eq, uuid.toLower_dashed, hnames.containerBelow_eq]

/-- A pod is found exactly when a segment names one. -/
theorem scanSegments_ne_nil_iff (unicode : Unicode) (segments : List GoString) :
    (scanSegments unicode segments).1 ≠ [] ↔ ∃ segment ∈ segments, NamesPod segment := by
  induction segments with
  | nil => simp [scanSegments]
  | cons first rest ih =>
      by_cases hfirst : NamesPod first
      · obtain ⟨uuid, text, hshaped⟩ := hfirst
        obtain ⟨container, hnames⟩ := exists_namesContainer rest
        have hscan : scanSegments unicode ([] ++ first :: rest) =
            (uuid.dashed.map lowerByte, container) :=
          scanSegments_eq unicode (by simp) hshaped hnames
        have hdashed : uuid.dashed ≠ [] := by
          rw [← List.length_pos_iff, Uuid.dashed, uuid.length_spell]
          decide
        rw [List.nil_append] at hscan
        rw [hscan]
        exact iff_of_true (by simpa using hdashed)
          ⟨first, List.mem_cons_self, uuid, text, hshaped⟩
      · rw [scanSegments, findSubmatch_eq_none_iff.2 hfirst, List.exists_mem_cons_iff,
          or_iff_right hfirst]
        exact ih

/-- How the kubelet spells the segment of a pod. -/
inductive KubeletSpelling (uuid : Uuid) : GoString → Prop
  | cgroupfs : KubeletSpelling uuid (str "pod" ++ uuid.dashed)
  | systemd (front : GoString) (hfront : slash ∉ front) :
      KubeletSpelling uuid
        ((front ++ [dash]) ++ (str "pod" ++ (uuid.underscored ++ str ".slice")))

theorem KubeletSpelling.exists_podShaped {uuid : Uuid} {segment : GoString}
    (hspelling : KubeletSpelling uuid segment) : ∃ text, PodShaped segment uuid text := by
  cases hspelling with
  | cgroupfs =>
      exact ⟨uuid.dashed, ⟨dash, dash, dash, dash, rfl, rfl, rfl, rfl, rfl⟩,
        [], [], by simp, Or.inl rfl, Or.inl rfl⟩
  | systemd front =>
      exact ⟨uuid.underscored,
        ⟨underscore, underscore, underscore, underscore, rfl, rfl, rfl, rfl, rfl⟩,
        front ++ [dash], str ".slice", rfl, Or.inr ⟨front, rfl⟩, Or.inr rfl⟩

theorem Uuid.slash_notMem_spell (uuid : Uuid) {separator : Byte} (hseparator : slash ≠ separator) :
    slash ∉ uuid.spell separator separator separator separator := by
  have hgroup {digits : GoString} (hdigits : digits.all isHex = true) : slash ∉ digits := by
    intro hmem
    cases List.all_eq_true.1 hdigits slash hmem
  simp [Uuid.spell, hseparator, hgroup uuid.first_hex.2, hgroup uuid.second_hex.2,
    hgroup uuid.third_hex.2, hgroup uuid.fourth_hex.2, hgroup uuid.fifth_hex.2]

theorem KubeletSpelling.slash_notMem {uuid : Uuid} {segment : GoString}
    (hspelling : KubeletSpelling uuid segment) : slash ∉ segment := by
  cases hspelling with
  | cgroupfs =>
      rw [List.mem_append, not_or]
      exact ⟨by decide, uuid.slash_notMem_spell (by decide)⟩
  | systemd front hfront =>
      simp only [List.mem_append, not_or]
      exact ⟨⟨hfront, by decide⟩, by decide, uuid.slash_notMem_spell (by decide), by decide⟩

/-- Joining segments and splitting the path again gives the segments. -/
theorem split_join {segments : List GoString} (hsegments : segments ≠ [])
    (hslash : ∀ segment ∈ segments, slash ∉ segment) :
    split (join segments [slash]) slash = segments :=
  List.splitOn_intercalate slash hslash hsegments

/-- The IDs that are parsed from the path of a process in a pod. -/
theorem parsePod_join (unicode : Unicode) {uuid : Uuid} {leading below : List GoString}
    {podSegment container : GoString}
    (hleading : ∀ segment ∈ leading, slash ∉ segment ∧ ¬ NamesPod segment)
    (hspelling : KubeletSpelling uuid podSegment) (hbelow : ∀ segment ∈ below, slash ∉ segment)
    (hnames : NamesContainer below container) :
    parsePod unicode (join (leading ++ podSegment :: below) [slash]) =
      (uuid.dashed.map lowerByte, container) := by
  obtain ⟨text, hshaped⟩ := hspelling.exists_podShaped
  have hslash : ∀ part ∈ leading ++ podSegment :: below, slash ∉ part := by
    simp only [List.forall_mem_append, List.forall_mem_cons]
    exact ⟨fun part hpart => (hleading part hpart).1, hspelling.slash_notMem, hbelow⟩
  rw [parsePod, split_join (by simp) hslash]
  exact scanSegments_eq unicode (fun part hpart => (hleading part hpart).2) hshaped hnames

/-- `ParsePod` undoes the kubelet's spelling of a pod whatever follows below it,
and finds a pod exactly when a segment names one, the first of which decides. -/
theorem parsePod_grammar (unicode : Unicode) :
    (∀ (leading below : List GoString) (uuid : Uuid) (segment container : GoString),
      (∀ segment ∈ leading, slash ∉ segment ∧ ¬ NamesPod segment) →
      KubeletSpelling uuid segment →
      (∀ segment ∈ below, slash ∉ segment) →
      NamesContainer below container →
      parsePod unicode (join (leading ++ segment :: below) [slash]) =
        (uuid.dashed.map lowerByte, container)) ∧
    (∀ path, (parsePod unicode path).1 ≠ [] ↔ ∃ segment ∈ split path slash, NamesPod segment) ∧
    (∀ (path : GoString) (leading below : List GoString) (uuid : Uuid)
        (segment text container : GoString),
      split path slash = leading ++ segment :: below →
      (∀ segment ∈ leading, ¬ NamesPod segment) →
      PodShaped segment uuid text →
      NamesContainer below container →
      parsePod unicode path = (uuid.dashed.map lowerByte, container)) := by
  refine ⟨?_, fun path => scanSegments_ne_nil_iff unicode _, ?_⟩
  · intro leading below uuid segment container hleading hspelling hbelow hnames
    exact parsePod_join unicode hleading hspelling hbelow hnames
  · intro path leading below uuid segment text container hsplit hleading hshaped hnames
    rw [parsePod, hsplit]
    exact scanSegments_eq unicode hleading hshaped hnames

/-- A pod of the API server. -/
def checkout : Uuid where
  first := str "0a1b2C3D"
  second := str "4e5f"
  third := str "6071"
  fourth := str "8293"
  fifth := str "a4b5c6d7e8f9"
  first_hex := by decide
  second_hex := by decide
  third_hex := by decide
  fourth_hex := by decide
  fifth_hex := by decide

/-- A container that makes a cgroup of its own named like a pod stays where it
is. -/
theorem parsePod_nested :
    parsePod Unicode.ascii
      (join ([[], str "kubepods.slice"] ++
        ((str "kubepods" ++ [dash]) ++ (str "pod" ++ (checkout.underscored ++ str ".slice"))) ::
        [str "cri-containerd-0123456789AB.scope", str "pod" ++ checkout.dashed]) [slash]) =
      (str "0a1b2c3d-4e5f-6071-8293-a4b5c6d7e8f9", str "0123456789ab") := by
  have hleading : ∀ segment ∈ [[], str "kubepods.slice"], slash ∉ segment ∧
      podUIDSegment.findSubmatch segment = none := by
    decide +kernel
  have hcontainer : ContainerShaped (str "cri-containerd-0123456789AB.scope")
      (str "0123456789AB") :=
    ⟨by decide, str "cri-containerd-", str ".scope", by decide, by decide, Or.inr rfl⟩
  exact (parsePod_grammar Unicode.ascii).1 _ _ checkout _ _
    (fun segment hsegment => ⟨(hleading segment hsegment).1,
      findSubmatch_eq_none_iff.1 (hleading segment hsegment).2⟩)
    (KubeletSpelling.systemd (str "kubepods") (by decide)) (by decide)
    (NamesContainer.named _ hcontainer)

end KernelSeal.ParsePod
