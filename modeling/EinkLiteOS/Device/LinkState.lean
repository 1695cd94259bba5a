/-
# Device.LinkState -- the link flags over a sequence of calls

`WIFI_CONNECT_STATE` is set where `AT+CIPSTART` is acknowledged and cleared by `WIFI_Init`
alone; `WIFI_SEND_STATE` is cleared by `WIFI_Init` and set nowhere.  So neither follows the
module: `transparent_mode_unseen` is the transparent mode the firmware enters after its
start, which the guard of `WIFI_TCPConnect` does not see.  `flags_track` is when they do.
-/
import EinkLiteOS.Device.AtCommand
import EinkLiteOS.Theory.Runs
import EinkLiteOS.Theory.Since

namespace EinkLiteOS.Device

open EinkLiteOS.Theory

set_option autoImplicit false

/-- The flags, and everything the calls have done. -/
structure Link where
  flags : WifiState
  history : List WifiEffect

/-- Before the first call. -/
def Link.reset : Link := ⟨.reset, []⟩

/-- One call. -/
def Link.call (s : Link) (call : WifiCall) : Option Link :=
  (call.run s.flags).map fun (flags, effects) => ⟨flags, s.history ++ effects⟩

/-! ## What the module has acknowledged -/

/-- `AT+CIPSTART` is acknowledged. -/
def Connects : WifiEffect → Prop
  | .sendCmd (.cipStart _ _) .ok => True
  | _ => False

/-- `AT+CIPCLOSE` is acknowledged, or `WIFI_Init` runs. -/
def Disconnects : WifiEffect → Prop
  | .init | .sendCmd .cipClose .ok => True
  | _ => False

/-- The `AT+CIPSEND` of `WIFI_SetTxMode(1)` is acknowledged. -/
def EntersSend : WifiEffect → Prop
  | .sendCmd .cipSend .ok => True
  | _ => False

/-- The `AT+CIPMODE=0` of `WIFI_SetTxMode(0)` is acknowledged, or `WIFI_Init` runs. -/
def LeavesSend : WifiEffect → Prop
  | .init => True
  | .sendCmd (.cipMode modetype) .ok => modetype = 0
  | _ => False

/-- There is a connection. -/
def Connected (history : List WifiEffect) : Prop := Since Connects Disconnects history

/-- The module is in transparent send mode. -/
def Sending (history : List WifiEffect) : Prop := Since EntersSend LeavesSend history

/-- The flags follow the module, and no connection is asked for in transparent mode. -/
structure Tracks (s : Link) : Prop where
  connect : s.flags.connectState = 1 ↔ Connected s.history
  send : s.flags.sendState = 1 ↔ Sending s.history
  transparent : ∀ front ip port result back,
    s.history = front ++ .sendCmd (.cipStart ip port) result :: back → ¬ Sending front

/-- The transparent mode is not entered, and a connection is not closed. -/
def KeepsFlags (s : Link) : WifiCall → Prop
  | .setTxMode modetype _ cipSend => modetype = 1 → cipSend ≠ .ok
  | .disconnnect cipClose => cipClose = .ok → s.flags.connectState ≠ 1
  | .init _ _ _ _ | .setMode _ _ | .setIp _ _ | .linkSsid _ _ _ | .tcpConnect _ _ _ => True

instance (s : Link) : (call : WifiCall) → Decidable (KeepsFlags s call)
  | .setTxMode _ _ _ | .disconnnect _ => inferInstanceAs (Decidable (_ → _))
  | .init _ _ _ _ | .setMode _ _ | .setIp _ _ | .linkSsid _ _ _ | .tcpConnect _ _ _ =>
      inferInstanceAs (Decidable True)

/-! ## What the calls do -/

/-- A call that touches neither the connection nor the transparent mode. -/
def Quiet (effects : List WifiEffect) : Prop :=
  ∀ effect ∈ effects, ¬ Connects effect ∧ ¬ Disconnects effect ∧ ¬ EntersSend effect

theorem quiet_nil : Quiet [] := nofun

theorem quiet_sendFormatted {size : Nat} {command : AtCommand} {result : WifiResult}
    (quiet : Quiet [.sendCmd command result]) : Quiet (sendFormatted size command result) := by
  intro effect member
  rcases List.mem_cons.mp member with rfl | sent
  · exact ⟨id, id, id⟩
  · exact quiet effect sent

theorem quiet_append {front back : List WifiEffect} (first : Quiet front) (second : Quiet back) :
    Quiet (front ++ back) := List.forall_mem_append.mpr ⟨first, second⟩

theorem quiet_sendCmd {command : AtCommand} {result : WifiResult}
    (connects : ¬ Connects (.sendCmd command result))
    (disconnects : ¬ Disconnects (.sendCmd command result))
    (enters : ¬ EntersSend (.sendCmd command result)) : Quiet [.sendCmd command result] := by
  intro effect member
  obtain rfl := List.mem_singleton.mp member
  exact ⟨connects, disconnects, enters⟩

theorem setMode_quiet (modetype : UInt8) (mode : WifiResult) :
    Quiet (wifiSetMode modetype mode).1 := by
  simp only [wifiSetMode]
  split
  · exact quiet_nil
  · exact quiet_sendFormatted (quiet_sendCmd id id id)

theorem setTxMode_quiet {modetype : UInt8} {cipMode cipSend : WifiResult}
    (refused : modetype = 1 → cipSend ≠ .ok) :
    Quiet (wifiSetTxMode modetype cipMode cipSend).1 := by
  simp only [wifiSetTxMode]
  split
  · exact quiet_nil
  · split
    · rename_i one
      refine quiet_append (quiet_sendFormatted (quiet_sendCmd id id id))
        (quiet_sendFormatted (quiet_sendCmd id id ?_))
      cases cipSend with
      | ok => exact absurd rfl (refused one)
      | error => exact id
      | noResponse => exact id
    · exact quiet_sendFormatted (quiet_sendCmd id id id)

/-! ## The flags -/

/-- What holds as long as the transparent mode is not entered and no connection closed. -/
structure Followed (s : Link) : Prop where
  connect : s.flags.connectState = 1 ↔ Connected s.history
  send : s.flags.sendState = 0
  never : ∀ effect ∈ s.history, ¬ EntersSend effect

theorem Followed.tracks {s : Link} (followed : Followed s) : Tracks s := by
  refine ⟨followed.connect, ?_, ?_⟩
  · rw [followed.send]
    exact iff_of_false (by decide) (not_since_of_none followed.never)
  · intro front ip port result back split
    apply not_since_of_none
    intro effect member
    apply followed.never
    rw [split]
    exact List.mem_append_left _ member

section Call

variable {s : Link} {flags : WifiState} {effects : List WifiEffect}

/-- A quiet call that leaves the two flags alone. -/
theorem Followed.quiet (followed : Followed s) (quiet : Quiet effects)
    (connect : flags.connectState = s.flags.connectState)
    (send : flags.sendState = s.flags.sendState) : Followed ⟨flags, s.history ++ effects⟩ := by
  refine ⟨?_, send.trans followed.send, List.forall_mem_append.mpr ⟨followed.never, ?_⟩⟩
  · show flags.connectState = 1 ↔ Since Connects Disconnects (s.history ++ effects)
    rw [connect, followed.connect]
    exact (since_append_quiet (fun effect member => (quiet effect member).1)
      fun effect member => (quiet effect member).2.1).symm
  · exact fun effect member => (quiet effect member).2.2

/-- `WIFI_Init` leaves no connection. -/
theorem Followed.init (followed : Followed s) (modeType : UInt8)
    (echoOff mode autoLinkOff : WifiResult) :
    Followed ⟨(wifiInit modeType echoOff mode autoLinkOff).1,
      s.history ++ (wifiInit modeType echoOff mode autoLinkOff).2⟩ := by
  have neither : ∀ effect ∈ (wifiInit modeType echoOff mode autoLinkOff).2,
      ¬ Connects effect ∧ ¬ EntersSend effect := by
    intro effect member
    rcases List.mem_append.mp member with first | station
    · simp only [List.mem_cons, List.not_mem_nil, or_false] at first
      rcases first with rfl | rfl | rfl <;> exact ⟨id, id⟩
    · split at station
      · rcases List.mem_append.mp station with mode | link
        · obtain ⟨connects, -, enters⟩ := setMode_quiet _ _ effect mode
          exact ⟨connects, enters⟩
        · obtain rfl := List.mem_singleton.mp link
          exact ⟨id, id⟩
      · cases station
  refine ⟨iff_of_false (show ¬ (0 : UInt8) = 1 by decide) ?_, rfl,
    List.forall_mem_append.mpr ⟨followed.never, ?_⟩⟩
  · exact not_since_append (fun effect member => (neither effect member).1)
      (List.mem_append_left _ List.mem_cons_self) trivial
  · exact fun effect member => (neither effect member).2

/-- An acknowledged `AT+CIPSTART` sets the flag, and any other leaves it. -/
theorem Followed.cipStart (followed : Followed s) (ip port : CString) (result : WifiResult) :
    Followed ⟨if result = .ok then { s.flags with connectState := 1 } else s.flags,
      s.history ++ sendFormatted 100 (.cipStart ip port) result⟩ := by
  cases result with
  | ok =>
      refine ⟨iff_of_true rfl ?_, followed.send, List.forall_mem_append.mpr ⟨followed.never, ?_⟩⟩
      · refine (since_append _ _).mpr (Or.inl ?_)
        exact ⟨[.sprintf 100 (.cipStart ip port)], _, [], rfl, trivial, nofun⟩
      · intro effect member
        simp only [sendFormatted, List.mem_cons, List.not_mem_nil, or_false] at member
        rcases member with rfl | rfl
        · exact id
        · exact id
  | error => exact followed.quiet (quiet_sendFormatted (quiet_sendCmd id id id)) rfl rfl
  | noResponse => exact followed.quiet (quiet_sendFormatted (quiet_sendCmd id id id)) rfl rfl

/-- An acknowledged `AT+CIPCLOSE` leaves no connection. -/
theorem Followed.cipClose (followed : Followed s) (result : WifiResult)
    (allowed : result = .ok → s.flags.connectState ≠ 1) :
    Followed ⟨s.flags, s.history ++ [.sendCmd .cipClose result]⟩ := by
  cases result with
  | ok =>
      refine ⟨iff_of_false (allowed rfl) ?_, followed.send,
        List.forall_mem_append.mpr ⟨followed.never, List.forall_mem_singleton.mpr id⟩⟩
      apply not_since_append _ (List.mem_singleton_self _) trivial
      exact List.forall_mem_singleton.mpr id
  | error => exact followed.quiet (quiet_sendCmd id id id) rfl rfl
  | noResponse => exact followed.quiet (quiet_sendCmd id id id) rfl rfl

end Call

/-- **Every allowed call keeps the flags with the module.** -/
theorem call_followed {s t : Link} {call : WifiCall} (followed : Followed s)
    (allowed : KeepsFlags s call) (called : s.call call = some t) : Followed t := by
  obtain ⟨⟨flags, effects⟩, run, rfl⟩ := Option.map_eq_some_iff.mp called
  cases call with
  | init modeType echoOff mode autoLinkOff =>
      cases run
      exact followed.init modeType echoOff mode autoLinkOff
  | setMode modetype mode =>
      cases run
      exact followed.quiet (setMode_quiet modetype mode) rfl rfl
  | setTxMode modetype cipMode cipSend =>
      cases run
      exact followed.quiet (setTxMode_quiet allowed) rfl rfl
  | setIp ip staIp =>
      obtain ⟨⟨effects', result⟩, returned, same⟩ := Option.map_eq_some_iff.mp run
      cases same
      apply followed.quiet _ rfl rfl
      rcases wifiSetIp_cases returned with rfl | rfl
      · exact quiet_nil
      · exact quiet_sendFormatted (quiet_sendCmd id id id)
  | linkSsid ssid password linkAp =>
      cases run
      apply followed.quiet (quiet_sendFormatted (quiet_sendCmd id id id))
      · show (if linkAp = .ok then _ else s.flags).connectState = _
        split <;> rfl
      · show (if linkAp = .ok then _ else s.flags).sendState = _
        split <;> rfl
  | tcpConnect serverIp serverPort cipStart =>
      obtain ⟨⟨next, effects', result⟩, returned, same⟩ := Option.map_eq_some_iff.mp run
      cases same
      rcases wifiTcpConnect_cases returned with ⟨rfl, rfl⟩ | ⟨-, rfl, rfl⟩
      · exact followed.quiet quiet_nil rfl rfl
      · exact followed.cipStart serverIp serverPort cipStart
  | disconnnect cipClose =>
      cases run
      exact followed.cipClose cipClose allowed

/-- **The flags follow the module** in every sequence of calls in which the transparent mode
is not entered and no connection is closed. -/
theorem flags_track (calls : List WifiCall) (s : Link)
    (run : Run Link.call KeepsFlags .reset calls s) : Tracks s := by
  have start : Followed .reset := by
    refine ⟨iff_of_false (by decide) ?_, rfl, nofun⟩
    exact not_since_of_none nofun
  exact (run.invariant (I := Followed) (fun _ _ _ => call_followed) start).tracks

/-- A server's address and port. -/
def server : CString := ⟨ascii "192.168.3.66", by decide⟩

def serverPort : CString := ⟨ascii "11451", by decide⟩

/-- Connecting again after a refused attempt. -/
def connectTwice : List WifiCall :=
  [.init 1 .ok .ok .ok, .tcpConnect server serverPort .error, .tcpConnect server serverPort .ok]

theorem flags_track_connectTwice :
    ∃ s, perform Link.call KeepsFlags .reset connectTwice = some s ∧ Tracks s := by
  have runs : (perform Link.call KeepsFlags .reset connectTwice).isSome = true := by
    decide +kernel
  obtain ⟨s, reached⟩ := Option.isSome_iff_exists.mp runs
  exact ⟨s, reached, flags_track connectTwice s (run_of_perform reached)⟩

/-- The calls of the firmware's start: the station, the access point, the server, and the
transparent mode. -/
def firmwareStart : List WifiCall :=
  [.init wifiStation .ok .ok .ok,
    .linkSsid ⟨ascii "1302", by decide⟩ ⟨ascii "xiyukeji13+02", by decide⟩ .ok,
    .tcpConnect server serverPort .ok, .setTxMode 1 .ok .ok]

/-- What they do before `AT+CIPSEND` is acknowledged. -/
def beforeSend : List WifiEffect :=
  [.init, .sendString (ascii "+++"), .sendCmd .echoOff .ok] ++
    sendFormatted 14 (.mode wifiStation) .ok ++ [.sendCmd .autoLinkOff .ok] ++
    sendFormatted 40
      (.linkAp ⟨ascii "1302", by decide⟩ ⟨ascii "xiyukeji13+02", by decide⟩) .ok ++
    sendFormatted 100 (.cipStart server serverPort) .ok ++
    sendFormatted 14 (.cipMode 1) .ok ++ [.sprintf 14 .cipSend]

/-- The transparent mode is entered, and `WIFI_SEND_STATE` is still 0. -/
theorem transparent_mode_unseen : ¬ ∀ (calls : List WifiCall) (s : Link),
    Run Link.call unguarded .reset calls s → Tracks s := by
  intro all
  have reached : perform Link.call unguarded .reset firmwareStart =
      some ⟨⟨1, 1, 0⟩, beforeSend ++ [.sendCmd .cipSend .ok]⟩ := rfl
  have tracks := all firmwareStart _ (run_of_perform reached)
  have sending : Sending (beforeSend ++ [.sendCmd .cipSend .ok]) :=
    ⟨beforeSend, _, [], rfl, trivial, nofun⟩
  exact absurd (tracks.send.mpr sending) (show ¬ (0 : UInt8) = 1 by decide)

end EinkLiteOS.Device
