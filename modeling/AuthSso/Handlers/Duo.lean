import AuthSso.Utils.Strings

/-!
# Duo pre-authentication of `internal/handlers/duo.go`

`duoPreAuth`, Go's `DuoPreAuth`, asks the Duo API which devices the session's user has
and keeps, of each, the methods Authelia can drive. The API and `duo.PossibleMethods`
belong to the `duo` package, which is not part of this repository's files: the API is a
parameter, and so is the list of possible methods, so the results below hold for every
such list. Go's nil
device slice is the empty list: the handler never returns a non-nil empty one.
-/
namespace AuthSso.Handlers

open AuthSso.Utils

/-- A device of a pre-auth response, `duo.Device`. -/
structure Device where
  device : String
  displayName : String
  capabilities : List String
  deriving Repr, DecidableEq

/-- `duo.PreAuthResponse`, the fields the handler reads. -/
structure PreAuthResponse where
  result : String
  statusMessage : String
  devices : List Device
  enrollPortalURL : String
  deriving Repr, DecidableEq

/-- A device as the handler offers it, with the methods it supports. -/
structure DuoDevice where
  device : String
  displayName : String
  capabilities : List String
  deriving Repr, DecidableEq

/-- `url.Values`: each key with its values. -/
def Values : Type := List (String × List String)

/-- `duo.API`, of which the handler calls `PreAuthCall`; its error is kept as text. -/
structure API where
  preAuthCall : Values → Except String PreAuthResponse

/-- Modelled from the spec: the `auth` result of a pre-auth call, the one that asks for a
second factor. -/
def auth : String := "auth"

/-- The inner loop of `duoPreAuth`: the possible methods the device supports, in the
order of `possibleMethods`. -/
def supportedMethodsOf (possibleMethods : List String) (device : Device) : List String :=
  possibleMethods.foldl (fun supportedMethods method =>
    if isStringInSlice method device.capabilities then supportedMethods ++ [method]
    else supportedMethods) []

/-- The outer loop of `duoPreAuth`: each device with a supported method, in order. -/
def supportedDevicesOf (possibleMethods : List String) (devices : List Device) :
    List DuoDevice :=
  devices.foldl (fun supportedDevices device =>
    let supportedMethods := supportedMethodsOf possibleMethods device
    if supportedMethods.length > 0 then
      supportedDevices ++ [⟨device.device, device.displayName, supportedMethods⟩]
    else supportedDevices) []

/-- `duoPreAuth` for the session's `username`: result, status message, devices, enroll
portal URL and error. -/
def duoPreAuth (possibleMethods : List String) (username : String) (duoAPI : API) :
    String × String × List DuoDevice × String × Option String :=
  let values : Values := [("username", [username])]
  match duoAPI.preAuthCall values with
  | .error err => ("", "", [], "", some err)
  | .ok preAuthResponse =>
    if preAuthResponse.result = auth then
      let supportedDevices := supportedDevicesOf possibleMethods preAuthResponse.devices
      if supportedDevices.length > 0 then
        (preAuthResponse.result, preAuthResponse.statusMessage, supportedDevices,
          preAuthResponse.enrollPortalURL, none)
      else (preAuthResponse.result, preAuthResponse.statusMessage, [],
        preAuthResponse.enrollPortalURL, none)
    else (preAuthResponse.result, preAuthResponse.statusMessage, [],
      preAuthResponse.enrollPortalURL, none)

/-- The methods the handler offers for a device. -/
def offeredMethods (possibleMethods : List String) (device : Device) : List String :=
  possibleMethods.filter (· ∈ device.capabilities)

/-- The devices the handler offers, each with its offered methods. -/
def offeredDevices (possibleMethods : List String) (devices : List Device) : List DuoDevice :=
  (devices.filter fun d => offeredMethods possibleMethods d ≠ []).map fun d =>
    ⟨d.device, d.displayName, offeredMethods possibleMethods d⟩

theorem foldl_supportedMethods (device : Device) (methods acc : List String) :
    methods.foldl (fun supportedMethods method =>
        if isStringInSlice method device.capabilities then supportedMethods ++ [method]
        else supportedMethods) acc =
      acc ++ methods.filter (· ∈ device.capabilities) := by
  induction methods generalizing acc with
  | nil => simp
  | cons m ms ih =>
    rw [List.foldl_cons, ih]
    by_cases h : m ∈ device.capabilities <;> simp [h, List.filter_cons]

theorem supportedMethodsOf_eq (possibleMethods : List String) (device : Device) :
    supportedMethodsOf possibleMethods device = offeredMethods possibleMethods device := by
  rw [supportedMethodsOf, foldl_supportedMethods, List.nil_append, offeredMethods]

theorem foldl_supportedDevices (possibleMethods : List String) (devices : List Device)
    (acc : List DuoDevice) :
    devices.foldl (fun supportedDevices device =>
        let supportedMethods := supportedMethodsOf possibleMethods device
        if supportedMethods.length > 0 then
          supportedDevices ++ [⟨device.device, device.displayName, supportedMethods⟩]
        else supportedDevices) acc =
      acc ++ offeredDevices possibleMethods devices := by
  induction devices generalizing acc with
  | nil => simp [offeredDevices]
  | cons d ds ih =>
    rw [List.foldl_cons, ih]
    by_cases h : offeredMethods possibleMethods d = [] <;>
      simp [h, offeredDevices, supportedMethodsOf_eq, List.filter_cons, List.length_pos]

theorem supportedDevicesOf_eq (possibleMethods : List String) (devices : List Device) :
    supportedDevicesOf possibleMethods devices = offeredDevices possibleMethods devices := by
  rw [supportedDevicesOf, foldl_supportedDevices, List.nil_append]

theorem offeredMethods_ne_nil_iff (possibleMethods : List String) (device : Device) :
    offeredMethods possibleMethods device ≠ [] ↔
      ∃ m ∈ possibleMethods, m ∈ device.capabilities := by
  simp [offeredMethods, List.filter_eq_nil_iff]

theorem offeredDevices_ne_nil_iff (possibleMethods : List String) (devices : List Device) :
    offeredDevices possibleMethods devices ≠ [] ↔
      ∃ d ∈ devices, ∃ m ∈ possibleMethods, m ∈ d.capabilities := by
  simp only [offeredDevices, ne_eq, List.map_eq_nil_iff, List.filter_eq_nil_iff, not_forall,
    decide_eq_true_eq, not_not, exists_prop]
  exact exists_congr fun d => and_congr_right fun _ => offeredMethods_ne_nil_iff _ _

/-- The answer to a successful pre-auth call, with the two loops as the filters they
compute. -/
theorem duoPreAuth_eq_of_ok (possibleMethods : List String) (username : String) {duoAPI : API}
    {resp : PreAuthResponse} (h : duoAPI.preAuthCall [("username", [username])] = .ok resp) :
    duoPreAuth possibleMethods username duoAPI =
      (resp.result, resp.statusMessage,
        (if resp.result = auth then offeredDevices possibleMethods resp.devices else []),
        resp.enrollPortalURL, none) := by
  unfold duoPreAuth
  dsimp only
  rw [h]
  by_cases ha : resp.result = auth
  · by_cases hd : offeredDevices possibleMethods resp.devices = [] <;>
      simp [ha, hd, supportedDevicesOf_eq, List.length_pos]
  · simp [ha]

/-- A successful pre-auth call is passed through, and the devices offered are those with a
possible method, each with the possible methods it supports: every device when the
result is `auth`, none otherwise. The list is empty unless the result is `auth` and some
device supports a possible method. -/
theorem duoPreAuth_of_ok (possibleMethods : List String) (username : String) (duoAPI : API)
    {resp : PreAuthResponse} (h : duoAPI.preAuthCall [("username", [username])] = .ok resp) :
    duoPreAuth possibleMethods username duoAPI =
        (resp.result, resp.statusMessage,
          (if resp.result = auth then
            (resp.devices.filter fun d => ∃ m ∈ possibleMethods, m ∈ d.capabilities).map
              fun d => ⟨d.device, d.displayName, possibleMethods.filter (· ∈ d.capabilities)⟩
          else []),
          resp.enrollPortalURL, none) ∧
      ((duoPreAuth possibleMethods username duoAPI).2.2.1 ≠ [] ↔
        resp.result = auth ∧ ∃ d ∈ resp.devices, ∃ m ∈ possibleMethods, m ∈ d.capabilities) := by
  have hfilter : (resp.devices.filter fun d => ∃ m ∈ possibleMethods, m ∈ d.capabilities) =
      resp.devices.filter fun d => offeredMethods possibleMethods d ≠ [] :=
    List.filter_congr fun d _ => by simp only [offeredMethods_ne_nil_iff]
  rw [duoPreAuth_eq_of_ok possibleMethods username h, hfilter]
  refine ⟨rfl, ?_⟩
  by_cases ha : resp.result = auth <;> simp [ha, offeredDevices_ne_nil_iff]

/-- A response with a device that can push and one that can only take a phone call. -/
def sampleResponse : PreAuthResponse :=
  ⟨"auth", "Account is active",
    [⟨"DP1", "iOS", ["auto", "push"]⟩, ⟨"PH2", "Landline", ["phone"]⟩], ""⟩

def sampleAPI : API := ⟨fun _ => .ok sampleResponse⟩

theorem duoPreAuth_of_ok_sample :
    sampleAPI.preAuthCall [("username", ["john"])] = .ok sampleResponse ∧
      (duoPreAuth ["push"] "john" sampleAPI =
          (sampleResponse.result, sampleResponse.statusMessage,
            (if sampleResponse.result = auth then
              (sampleResponse.devices.filter fun d => ∃ m ∈ ["push"], m ∈ d.capabilities).map
                fun d => ⟨d.device, d.displayName, ["push"].filter (· ∈ d.capabilities)⟩
            else []),
            sampleResponse.enrollPortalURL, none) ∧
        ((duoPreAuth ["push"] "john" sampleAPI).2.2.1 ≠ [] ↔
          sampleResponse.result = auth ∧
            ∃ d ∈ sampleResponse.devices, ∃ m ∈ ["push"], m ∈ d.capabilities)) :=
  ⟨rfl, duoPreAuth_of_ok ["push"] "john" sampleAPI rfl⟩

example : (duoPreAuth ["push"] "john" sampleAPI).2.2.1 = [⟨"DP1", "iOS", ["push"]⟩] := by
  decide

/-- Two devices alike but for the order and the repeats of their capabilities. -/
def SameUpToCapabilityOrder (d d' : Device) : Prop :=
  d.device = d'.device ∧ d.displayName = d'.displayName ∧
    ∀ x, x ∈ d.capabilities ↔ x ∈ d'.capabilities

theorem offeredDevices_congr (possibleMethods : List String) {ds ds' : List Device}
    (h : List.Forall₂ SameUpToCapabilityOrder ds ds') :
    offeredDevices possibleMethods ds = offeredDevices possibleMethods ds' := by
  induction h with
  | nil => rfl
  | @cons d d' _ _ hd _ ih =>
    obtain ⟨hdev, hname, hcap⟩ := hd
    have hm : offeredMethods possibleMethods d = offeredMethods possibleMethods d' :=
      List.filter_congr fun m _ => by simp only [hcap m]
    simp only [offeredDevices, List.filter_cons, hm] at ih ⊢
    split_ifs <;> simp only [List.map_cons, hdev, hname, hm, ih]

/-- The handler reads a device's capabilities only by membership. Responses whose devices
differ only in the order or the repeats of their capabilities get the same answer: the
methods offered follow the order of the possible methods, not the order the API reports. -/
theorem duoPreAuth_capability_order (possibleMethods : List String) (username : String)
    {duoAPI duoAPI' : API} {resp : PreAuthResponse} {devices' : List Device}
    (h : duoAPI.preAuthCall [("username", [username])] = .ok resp)
    (h' : duoAPI'.preAuthCall [("username", [username])] = .ok { resp with devices := devices' })
    (hdevices : List.Forall₂ SameUpToCapabilityOrder resp.devices devices') :
    duoPreAuth possibleMethods username duoAPI' = duoPreAuth possibleMethods username duoAPI := by
  rw [duoPreAuth_eq_of_ok possibleMethods username h,
    duoPreAuth_eq_of_ok possibleMethods username h', offeredDevices_congr possibleMethods hdevices]

/-- The sample's devices with their capabilities listed the other way round. -/
def sampleReorderedAPI : API :=
  ⟨fun _ => .ok { sampleResponse with devices := sampleResponse.devices.map fun d =>
    { d with capabilities := d.capabilities.reverse } }⟩

theorem duoPreAuth_capability_order_sample :
    sampleAPI.preAuthCall [("username", ["john"])] = .ok sampleResponse ∧
      sampleReorderedAPI.preAuthCall [("username", ["john"])] =
        .ok { sampleResponse with devices := sampleResponse.devices.map fun d =>
          { d with capabilities := d.capabilities.reverse } } ∧
      List.Forall₂ SameUpToCapabilityOrder sampleResponse.devices
        (sampleResponse.devices.map fun d => { d with capabilities := d.capabilities.reverse }) ∧
      duoPreAuth ["push", "phone"] "john" sampleReorderedAPI =
        duoPreAuth ["push", "phone"] "john" sampleAPI :=
  have hdevices : List.Forall₂ SameUpToCapabilityOrder sampleResponse.devices
      (sampleResponse.devices.map fun d => { d with capabilities := d.capabilities.reverse }) :=
    .cons ⟨rfl, rfl, fun _ => List.mem_reverse.symm⟩
      (.cons ⟨rfl, rfl, fun _ => List.mem_reverse.symm⟩ .nil)
  ⟨rfl, rfl, hdevices, duoPreAuth_capability_order ["push", "phone"] "john" rfl rfl hdevices⟩

end AuthSso.Handlers
