import Micronet.Ipc
import Micronet.Serde

/-!
# The replies of the control socket

A reply is written by a derived serializer and read by the derived deserializer of the
same type, with attributes for each: variants in snake case, the fields of `status` in
camel case and those of `info` as they are, two of which are left out when empty.
Those two have no default, so a reply without them is not read back
(`dev_info_not_decoded`).
-/
namespace Micronet
open Serde

/-! ## Where the replies come from -/

/-- `version::Info`. -/
structure Info where
  version : String
  tagCommit : String
  buildCommit : String
  buildTime : String
deriving DecidableEq, Repr

/-- `version::load`, from the build environment and the ELF section. -/
def Info.load (gitCommit buildTime : Option String) (fromSection : Option (String × String)) :
    Info :=
  let out : Info :=
    { version := "dev", tagCommit := "", buildCommit := gitCommit.getD "unknown",
      buildTime := buildTime.getD "" }
  match fromSection with
  | none => out
  | some (v, c) =>
    { out with
      version := if v = "" then out.version else v
      tagCommit := if c = "" then out.tagCommit else c }

/-- `Response::from_info`. -/
def Response.fromInfo (info : Info) (hostname : String) : Response :=
  .info info.version info.buildCommit info.tagCommit info.buildTime hostname

/-! ## Their JSON -/

/-- The variants as they are declared. -/
def Mode.variant : Mode → String
  | .client => "Client"
  | .gateway => "Gateway"
  | .static => "Static"

def Mode.codec : Codec Mode :=
  .units (fun mode => camelVariant mode.variant)
    (fun s => [Mode.client, .gateway, .static].find? fun mode => camelVariant mode.variant = s)
    (fun mode => by cases mode <;> decide)

def textCodec : Codec (Option String) := .option .str fun _ h => Json.noConfusion h

namespace Response

/-- The discriminator. -/
def tag : String := "type"

def modeField : JsonField Mode := { name := camelField "mode", codec := Mode.codec }
def ifaceField : JsonField String := { name := camelField "iface", codec := .str }
def cidrField : JsonField (Option String) :=
  { name := camelField "cidr", codec := textCodec, missing := some none }
def foreignDhcpField : JsonField Bool := { name := camelField "foreign_dhcp", codec := .bool }
def gatewayReachableField : JsonField Bool :=
  { name := camelField "gateway_reachable", codec := .bool }
def dnsmasqRunningField : JsonField Bool := { name := camelField "dnsmasq_running", codec := .bool }
def healthyField : JsonField Bool :=
  { name := camelField "healthy", codec := .bool, missing := some false }
def unhealthyReasonField : JsonField (Option String) :=
  { name := camelField "unhealthy_reason", codec := textCodec, missing := some none }

def versionField : JsonField String := { name := "version", codec := .str }
def buildCommitField : JsonField String := { name := "build_commit", codec := .str }
def tagCommitField : JsonField String := { name := "tag_commit", codec := .str, skip := (· == "") }
def buildTimeField : JsonField String := { name := "build_time", codec := .str, skip := (· == "") }
def hostnameField : JsonField String := { name := "hostname", codec := .str }

def messageField : JsonField String := { name := "message", codec := .str }

/-- The variants as they are declared. -/
def variant : Response → String
  | .status .. => "Status"
  | .info .. => "Info"
  | .ok => "Ok"
  | .error _ => "Error"

/-- The fields of a variant, in the order they are declared. -/
def entries : Response → Entries
  | .status mode iface cidr foreignDhcp gatewayReachable dnsmasqRunning healthy reason =>
    modeField.write mode ++ ifaceField.write iface ++ cidrField.write cidr ++
      foreignDhcpField.write foreignDhcp ++ gatewayReachableField.write gatewayReachable ++
      dnsmasqRunningField.write dnsmasqRunning ++ healthyField.write healthy ++
      unhealthyReasonField.write reason
  | .info version buildCommit tagCommit buildTime hostname =>
    versionField.write version ++ buildCommitField.write buildCommit ++
      tagCommitField.write tagCommit ++ buildTimeField.write buildTime ++
      hostnameField.write hostname
  | .ok => []
  | .error message => messageField.write message

/-- The derived `Serialize`. -/
def toJson (r : Response) : Json := tagged tag (snakeVariant r.variant) r.entries

def readStatus (m : Entries) : Result Response := do
  let mode ← modeField.read m
  let iface ← ifaceField.read m
  let cidr ← cidrField.read m
  let foreignDhcp ← foreignDhcpField.read m
  let gatewayReachable ← gatewayReachableField.read m
  let dnsmasqRunning ← dnsmasqRunningField.read m
  let healthy ← healthyField.read m
  let reason ← unhealthyReasonField.read m
  return .status mode iface cidr foreignDhcp gatewayReachable dnsmasqRunning healthy reason

def readInfo (m : Entries) : Result Response := do
  let version ← versionField.read m
  let buildCommit ← buildCommitField.read m
  let tagCommit ← tagCommitField.read m
  let buildTime ← buildTimeField.read m
  let hostname ← hostnameField.read m
  return .info version buildCommit tagCommit buildTime hostname

def readError (m : Entries) : Result Response := do
  let message ← messageField.read m
  return .error message

/-- The variant of a name. -/
def readVariant (name : String) (m : Entries) : Result Response :=
  if name = snakeVariant "Status" then readStatus m
  else if name = snakeVariant "Info" then readInfo m
  else if name = snakeVariant "Ok" then .ok .ok
  else if name = snakeVariant "Error" then readError m
  else .error (.unknownVariant name)

/-- The derived `Deserialize`. -/
def ofJson (j : Json) : Result Response := do
  let (name, m) ← readTagged tag j
  readVariant name m

/-- `serde_json::to_string`. -/
def serialize {τ : Type} (F : Format τ) (r : Response) : τ := F.print r.toJson

/-- `serde_json::from_slice`. -/
def deserialize {τ : Type} (F : Format τ) (text : τ) : Result Response := F.parse text >>= ofJson

end Response

/-! ## Round trips -/

namespace Response

/-- The fields that are left out when empty are not empty. -/
def Complete : Response → Prop
  | .info _ _ tagCommit buildTime _ => tagCommit ≠ "" ∧ buildTime ≠ ""
  | _ => True

theorem valuesOf_tag (r : Response) : valuesOf tag r.entries = [] := by
  cases r <;> simp (disch := decide) [entries, JsonField.valuesOf_write_ne]
  rfl

theorem ofJson_toJson (r : Response) :
    ofJson r.toJson = readVariant (snakeVariant r.variant) r.entries := by
  unfold ofJson toJson
  rw [readTagged_tagged r.valuesOf_tag]
  rfl

/-- A field that is always written is read. -/
theorem read_written {α : Type} {f : JsonField α} {a : α} {m : Entries} (hskip : f.skip a = false)
    (hm : valuesOf f.name m = f.write a) : f.read m = .ok a :=
  (JsonField.read_eq_ok hm).mpr (JsonField.recovers_of_not_skip hskip)

/-- Nothing is left out of a status. -/
theorem readStatus_entries (mode : Mode) (iface : String) (cidr : Option String)
    (foreignDhcp gatewayReachable dnsmasqRunning healthy : Bool) (reason : Option String) :
    let r := status mode iface cidr foreignDhcp gatewayReachable dnsmasqRunning healthy reason
    readStatus r.entries = .ok r := by
  intro r
  unfold readStatus
  rw [read_written (f := modeField) (a := mode) rfl,
    read_written (f := ifaceField) (a := iface) rfl,
    read_written (f := cidrField) (a := cidr) rfl,
    read_written (f := foreignDhcpField) (a := foreignDhcp) rfl,
    read_written (f := gatewayReachableField) (a := gatewayReachable) rfl,
    read_written (f := dnsmasqRunningField) (a := dnsmasqRunning) rfl,
    read_written (f := healthyField) (a := healthy) rfl,
    read_written (f := unhealthyReasonField) (a := reason) rfl]
  · rfl
  all_goals simp (disch := decide) [r, entries, JsonField.valuesOf_write_ne]

/-- An info is read back unless a field that has no default was left out. -/
theorem readInfo_entries (version buildCommit tagCommit buildTime hostname : String) :
    let r := info version buildCommit tagCommit buildTime hostname
    readInfo r.entries = .ok r ↔ r.Complete := by
  intro r
  have htag : tagCommitField.read r.entries = .ok tagCommit ↔ tagCommit ≠ "" := by
    rw [JsonField.read_eq_ok (by simp (disch := decide) [r, entries, JsonField.valuesOf_write_ne])]
    simp [JsonField.Recovers, tagCommitField]
  have htime : buildTimeField.read r.entries = .ok buildTime ↔ buildTime ≠ "" := by
    rw [JsonField.read_eq_ok (by simp (disch := decide) [r, entries, JsonField.valuesOf_write_ne])]
    simp [JsonField.Recovers, buildTimeField]
  unfold readInfo
  rw [read_written (f := versionField) (a := version) rfl,
    read_written (f := buildCommitField) (a := buildCommit) rfl,
    read_written (f := hostnameField) (a := hostname) rfl]
  · simp [bind_ok_iff, htag, htime, Complete, r, pure, Except.pure]
  all_goals simp (disch := decide) [r, entries, JsonField.valuesOf_write_ne]

theorem ofJson_toJson_iff (r : Response) : ofJson r.toJson = .ok r ↔ r.Complete := by
  rw [ofJson_toJson]
  cases r with
  | status =>
    rw [variant, readVariant, if_pos rfl, readStatus_entries]
    exact iff_of_true rfl trivial
  | info =>
    rw [variant, readVariant, if_neg (by decide), if_pos rfl]
    exact readInfo_entries ..
  | ok =>
    rw [variant, readVariant, if_neg (by decide), if_neg (by decide), if_pos rfl]
    exact iff_of_true rfl trivial
  | error message =>
    rw [variant, readVariant, if_neg (by decide), if_neg (by decide), if_neg (by decide),
      if_pos rfl, readError, read_written (f := messageField) (a := message) rfl]
    · exact iff_of_true rfl trivial
    · simp [entries]

/-- **A reply is decoded to itself exactly if no field of it was left out**, in any text
format that parses what it prints. -/
theorem decoded_iff_complete {τ : Type} (F : Format τ) (r : Response) :
    deserialize F (serialize F r) = .ok r ↔ r.Complete := by
  unfold deserialize serialize
  rw [F.parse_print]
  exact r.ofJson_toJson_iff

/-- A build outside of a release has no tag. -/
theorem dev_info_not_decoded :
    deserialize .value
        (serialize .value (fromInfo (Info.load (some "3f9c2ab") (some "2025-01-01") none) "loco")) =
      .error (.missingField "tag_commit") := rfl

/-- Every status is. -/
theorem complete_fromStatus (s : Status) (health : Health) : (fromStatus s health).Complete :=
  trivial

/-- An info is if the build has its time and the section its commit. -/
theorem complete_fromInfo_load (gitCommit buildTime : Option String)
    (fromSection : Option (String × String)) (hostname : String) :
    (fromInfo (Info.load gitCommit buildTime fromSection) hostname).Complete ↔
      (∃ v c, fromSection = some (v, c) ∧ c ≠ "") ∧ ∃ t, buildTime = some t ∧ t ≠ "" := by
  have htime : buildTime.getD "" ≠ "" ↔ ∃ t, buildTime = some t ∧ t ≠ "" := by
    cases buildTime <;> simp
  cases fromSection with
  | none => simp [fromInfo, Info.load, Complete]
  | some vc =>
    obtain ⟨v, c⟩ := vc
    simp only [fromInfo, Info.load, Complete, htime]
    by_cases hc : c = "" <;> simp [hc]

end Response
end Micronet
