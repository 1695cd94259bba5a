/-
# Device.AtCommand -- the AT commands and the functions that send them

The functions of `Device/ESP8266.c` above `WIFI_SendCMD`, each with the local array it
formats its command in and the flags it sets.  What `WIFI_SendCMD` returns is an argument
of a call, one for each command it sends.  `WIFI_BOOTFLAG` and `MODE_TYPE` are left out,
since nothing reads them.

`fits_iff` is which commands fit in the array they are formatted in.
-/
import EinkLiteOS.Device.CheckAddress
import EinkLiteOS.Device.Esp8266

namespace EinkLiteOS.Device

set_option autoImplicit false

/-! ## Commands -/

/-- The commands that are sent, with what is formatted into them. -/
inductive AtCommand where
  /-- `ATE0` -/
  | echoOff
  | mode (modetype : UInt8)
  | autoLinkOff
  | cipMode (modetype : UInt8)
  | cipSend
  | staIp (ip : CString)
  | linkAp (ssid password : CString)
  | cipStart (ip port : CString)
  | cipClose

/-- `%d` -/
def decimal (n : UInt8) : List UInt8 := ascii (toString n.toNat)

/-- `"%s"` -/
def quoted (s : CString) : List UInt8 := ascii "\"" ++ s.bytes ++ ascii "\""

/-- The command as it is transmitted. -/
def AtCommand.text : AtCommand → List UInt8
  | .echoOff => ascii "ATE0\r\n"
  | .mode modetype => ascii "AT+CWMODE=" ++ decimal modetype ++ ascii "\r\n"
  | .autoLinkOff => ascii "AT+CWAUTOCONN=0\r\n"
  | .cipMode modetype => ascii "AT+CIPMODE=" ++ decimal modetype ++ ascii "\r\n"
  | .cipSend => ascii "AT+CIPSEND" ++ ascii "\r\n"
  | .staIp ip => ascii "AT+CIPSTA=" ++ quoted ip ++ ascii "\r\n"
  | .linkAp ssid password =>
      ascii "AT+CWJAP=" ++ quoted ssid ++ ascii "," ++ quoted password ++ ascii "\r\n"
  | .cipStart ip port =>
      ascii "AT+CIPSTART=" ++ ascii "\"TCP\"" ++ ascii "," ++ quoted ip ++ ascii "," ++
        port.bytes ++ ascii "\r\n"
  | .cipClose => ascii "AT+CIPCLOSE\r\n"

/-! ## Functions -/

/-- `WIFI_CONNECT_STATE`, `WIFI_AP_STATE` and `WIFI_SEND_STATE`. -/
structure WifiState where
  connectState : UInt8
  apState : UInt8
  sendState : UInt8
  deriving DecidableEq, Repr

/-- The flags after reset. -/
def WifiState.reset : WifiState := ⟨0, 0, 0⟩

/-- What a function does, in order. -/
inductive WifiEffect where
  /-- `WIFI_Init` begins. -/
  | init
  /-- A string is transmitted outside a command. -/
  | sendString (text : List UInt8)
  /-- A command is formatted in an array of this size. -/
  | sprintf (size : Nat) (command : AtCommand)
  /-- `WIFI_SendCMD`, and what it returns. -/
  | sendCmd (command : AtCommand) (result : WifiResult)

/-- A formatted command, and the command sent. -/
def sendFormatted (size : Nat) (command : AtCommand) (result : WifiResult) : List WifiEffect :=
  [.sprintf size command, .sendCmd command result]

/-- `WIFI_SetMode(modetype)` -/
def wifiSetMode (modetype : UInt8) (mode : WifiResult) : List WifiEffect × WifiResult :=
  if modetype < 1 ∨ 3 < modetype then ([], .error)
  else (sendFormatted 14 (.mode modetype) mode, mode)

/-- `WIFI_SetTxMode(modetype)` -/
def wifiSetTxMode (modetype : UInt8) (cipMode cipSend : WifiResult) :
    List WifiEffect × WifiResult :=
  if modetype < 0 ∨ 1 < modetype then ([], .error)
  else if modetype = 1 then
    (sendFormatted 14 (.cipMode modetype) cipMode ++ sendFormatted 14 .cipSend cipSend, cipSend)
  else (sendFormatted 14 (.cipMode modetype) cipMode, cipMode)

/-- `WIFI_SetIP(ip)`; `none` if the check leaves its array. -/
def wifiSetIp (ip : CString) (staIp : WifiResult) : Option (List WifiEffect × WifiResult) := do
  let ok ← wifiCheckIp ip
  if ok = 0 then return ([], .error)
  return (sendFormatted 30 (.staIp ip) staIp, staIp)

/-- `WIFI_LinkSSID(ssid, password)` -/
def wifiLinkSsid (s : WifiState) (ssid password : CString) (linkAp : WifiResult) :
    WifiState × List WifiEffect × WifiResult :=
  (if linkAp = .ok then { s with apState := 1 } else s,
    sendFormatted 40 (.linkAp ssid password) linkAp, linkAp)

/-- `WIFI_TCPConnect(server_ip, server_port)`; `none` if the check leaves its array. -/
def wifiTcpConnect (s : WifiState) (serverIp serverPort : CString) (cipStart : WifiResult) :
    Option (WifiState × List WifiEffect × WifiResult) := do
  if s.sendState = 1 then return (s, [], .noResponse)
  let ok ← wifiCheckIp serverIp
  if ok = 0 then return (s, [], .error)
  if wifiCheckPort serverPort = 0 then return (s, [], .error)
  return (if cipStart = .ok then { s with connectState := 1 } else s,
    sendFormatted 100 (.cipStart serverIp serverPort) cipStart, cipStart)

/-- `WIFI_Disconnnect()` -/
def wifiDisconnnect (cipClose : WifiResult) : List WifiEffect × WifiResult :=
  ([.sendCmd .cipClose cipClose], cipClose)

/-- `WIFI_STATION` -/
def wifiStation : UInt8 := 1

/-- `WIFI_Init(mode_type)` -/
def wifiInit (modeType : UInt8) (echoOff mode autoLinkOff : WifiResult) :
    WifiState × List WifiEffect :=
  (⟨0, 0, 0⟩,
    [.init, .sendString (ascii "+++"), .sendCmd .echoOff echoOff] ++
      if modeType = wifiStation then
        (wifiSetMode wifiStation mode).1 ++ [.sendCmd .autoLinkOff autoLinkOff]
      else [])

/-- A call, with what `WIFI_SendCMD` returns in it. -/
inductive WifiCall where
  | init (modeType : UInt8) (echoOff mode autoLinkOff : WifiResult)
  | setMode (modetype : UInt8) (mode : WifiResult)
  | setTxMode (modetype : UInt8) (cipMode cipSend : WifiResult)
  | setIp (ip : CString) (staIp : WifiResult)
  | linkSsid (ssid password : CString) (linkAp : WifiResult)
  | tcpConnect (serverIp serverPort : CString) (cipStart : WifiResult)
  | disconnnect (cipClose : WifiResult)

/-- What a call does to the flags, and its effects. -/
def WifiCall.run (s : WifiState) : WifiCall → Option (WifiState × List WifiEffect)
  | .init modeType echoOff mode autoLinkOff => some (wifiInit modeType echoOff mode autoLinkOff)
  | .setMode modetype mode => some (s, (wifiSetMode modetype mode).1)
  | .setTxMode modetype cipMode cipSend => some (s, (wifiSetTxMode modetype cipMode cipSend).1)
  | .setIp ip staIp => (wifiSetIp ip staIp).map fun (effects, _) => (s, effects)
  | .linkSsid ssid password linkAp =>
      let (next, effects, _) := wifiLinkSsid s ssid password linkAp
      some (next, effects)
  | .tcpConnect serverIp serverPort cipStart =>
      (wifiTcpConnect s serverIp serverPort cipStart).map fun (next, effects, _) => (next, effects)
  | .disconnnect cipClose => some (s, (wifiDisconnnect cipClose).1)

/-- What `WIFI_SetIP` can do. -/
theorem wifiSetIp_cases {ip : CString} {staIp result : WifiResult} {effects : List WifiEffect}
    (returned : wifiSetIp ip staIp = some (effects, result)) :
    effects = [] ∨ effects = sendFormatted 30 (.staIp ip) staIp := by
  simp only [wifiSetIp] at returned
  obtain ⟨ok, -, rest⟩ := Option.bind_eq_some_iff.mp returned
  split at rest
  · cases rest
    exact Or.inl rfl
  · cases rest
    exact Or.inr rfl

/-- What `WIFI_TCPConnect` can do. -/
theorem wifiTcpConnect_cases {s next : WifiState} {serverIp serverPort : CString}
    {cipStart result : WifiResult} {effects : List WifiEffect}
    (returned : wifiTcpConnect s serverIp serverPort cipStart = some (next, effects, result)) :
    (next = s ∧ effects = []) ∨
      s.sendState ≠ 1 ∧ next = (if cipStart = .ok then { s with connectState := 1 } else s) ∧
        effects = sendFormatted 100 (.cipStart serverIp serverPort) cipStart := by
  simp only [wifiTcpConnect] at returned
  split at returned
  · cases returned
    exact Or.inl ⟨rfl, rfl⟩
  · rename_i idle
    obtain ⟨ok, -, rest⟩ := Option.bind_eq_some_iff.mp returned
    split at rest
    · cases rest
      exact Or.inl ⟨rfl, rfl⟩
    · split at rest
      · cases rest
        exact Or.inl ⟨rfl, rfl⟩
      · cases rest
        exact Or.inr ⟨idle, rfl, rfl⟩

/-! ## Room for a command -/

/-- The arguments pass the function's own checks, and an SSID and a password are as long
as they may be. -/
def WifiCall.Checked (s : WifiState) : WifiCall → Prop
  | .setMode modetype _ => 1 ≤ modetype ∧ modetype ≤ 3
  | .setTxMode modetype _ _ => modetype ≤ 1
  | .setIp ip _ => wifiCheckIp ip = some 1
  | .linkSsid ssid password _ => ssid.bytes.length ≤ 32 ∧ password.bytes.length ≤ 64
  | .tcpConnect serverIp serverPort _ =>
      s.sendState ≠ 1 ∧ wifiCheckIp serverIp = some 1 ∧ wifiCheckPort serverPort = 1
  | .init _ _ _ _ | .disconnnect _ => True

/-- Every command the call formats fits in its array, with the NUL behind it. -/
def WifiCall.Fits (s : WifiState) (call : WifiCall) : Prop :=
  ∃ next effects, call.run s = some (next, effects) ∧
    ∀ size command, .sprintf size command ∈ effects → command.text.length + 1 ≤ size

/-- `WIFI_SetTxMode` is one byte short; an SSID and a password, or an address and a port,
are too long together. -/
def WifiCall.Short : WifiCall → Prop
  | .setTxMode _ _ _ => True
  | .linkSsid ssid password _ => 23 < ssid.bytes.length + password.bytes.length
  | .tcpConnect serverIp serverPort _ =>
      76 < serverIp.bytes.length + serverPort.bytes.length
  | .init _ _ _ _ | .setMode _ _ | .setIp _ _ | .disconnnect _ => False

/-- One digit is one byte. -/
theorem length_decimal {n : UInt8} (few : n ≤ 3) : (decimal n).length = 1 := by
  have cases : n = 0 ∨ n = 1 ∨ n = 2 ∨ n = 3 := by
    simp only [← UInt8.toNat_inj, UInt8.le_iff_toNat_le] at few ⊢
    change n.toNat ≤ 3 at few
    show n.toNat = 0 ∨ n.toNat = 1 ∨ n.toNat = 2 ∨ n.toNat = 3
    omega
  rcases cases with rfl | rfl | rfl | rfl <;> decide

theorem length_quoted (s : CString) : (quoted s).length = s.bytes.length + 2 := by
  have quote : (ascii "\"").length = 1 := by decide
  rw [quoted, List.length_append, List.length_append, quote]
  omega

theorem length_mode {modetype : UInt8} (few : modetype ≤ 3) :
    (AtCommand.mode modetype).text.length = 13 := by
  have front : (ascii "AT+CWMODE=").length = 10 := by decide
  have ended : (ascii "\r\n").length = 2 := by decide
  simp only [AtCommand.text, List.length_append, length_decimal few, front, ended]

theorem length_cipMode {modetype : UInt8} (few : modetype ≤ 3) :
    (AtCommand.cipMode modetype).text.length = 14 := by
  have front : (ascii "AT+CIPMODE=").length = 11 := by decide
  have ended : (ascii "\r\n").length = 2 := by decide
  simp only [AtCommand.text, List.length_append, length_decimal few, front, ended]

theorem length_staIp (ip : CString) : (AtCommand.staIp ip).text.length = ip.bytes.length + 14 := by
  have front : (ascii "AT+CIPSTA=").length = 10 := by decide
  have ended : (ascii "\r\n").length = 2 := by decide
  rw [AtCommand.text, List.length_append, List.length_append, length_quoted, front, ended]
  omega

theorem length_linkAp (ssid password : CString) : (AtCommand.linkAp ssid password).text.length =
    ssid.bytes.length + password.bytes.length + 16 := by
  have front : (ascii "AT+CWJAP=").length = 9 := by decide
  have comma : (ascii ",").length = 1 := by decide
  have ended : (ascii "\r\n").length = 2 := by decide
  simp only [AtCommand.text, List.length_append, length_quoted, front, comma, ended]
  omega

theorem length_cipStart (ip port : CString) : (AtCommand.cipStart ip port).text.length =
    ip.bytes.length + port.bytes.length + 23 := by
  have front : (ascii "AT+CIPSTART=").length = 12 := by decide
  have tcp : (ascii "\"TCP\"").length = 5 := by decide
  have comma : (ascii ",").length = 1 := by decide
  have ended : (ascii "\r\n").length = 2 := by decide
  simp only [AtCommand.text, List.length_append, length_quoted, front, tcp, comma, ended]
  omega

/-- An accepted address has at most 15 bytes. -/
theorem length_of_checkIp {ip : CString} (accepted : wifiCheckIp ip = some 1) :
    ip.bytes.length ≤ 15 := by
  rcases wifiCheckIp_cases ip with ⟨none, -⟩ | ⟨-, full, last, -, -, short, -⟩ | zero
  · rw [none] at accepted
    cases accepted
  · exact short
  · rw [zero] at accepted
    exact absurd accepted (by decide)

/-- A call that formats one command fits if the command does. -/
theorem fits_sendFormatted {s next : WifiState} {call : WifiCall} {size : Nat}
    {command : AtCommand} {result : WifiResult}
    (run : call.run s = some (next, sendFormatted size command result)) :
    call.Fits s ↔ command.text.length + 1 ≤ size := by
  simp only [WifiCall.Fits]
  rw [run]
  constructor
  · rintro ⟨_, _, same, fits⟩
    cases same
    exact fits size command List.mem_cons_self
  · intro fits
    refine ⟨next, _, rfl, ?_⟩
    intro size' command' member
    rcases List.mem_cons.mp member with same | sent
    · cases same
      exact fits
    · cases List.mem_singleton.mp sent

/-- The initialisation formats at most the mode. -/
theorem init_fits (s : WifiState) (modeType : UInt8) (echoOff mode autoLinkOff : WifiResult) :
    (WifiCall.init modeType echoOff mode autoLinkOff).Fits s := by
  refine ⟨_, _, rfl, ?_⟩
  intro size command member
  rcases List.mem_append.mp member with first | station
  · simp at first
  · split at station
    · have formatted : wifiSetMode wifiStation mode =
          (sendFormatted 14 (.mode wifiStation) mode, mode) := rfl
      rw [formatted, sendFormatted] at station
      simp only [List.cons_append, List.nil_append, List.mem_cons, List.not_mem_nil, or_false,
        reduceCtorEq, WifiEffect.sprintf.injEq] at station
      obtain ⟨rfl, rfl⟩ := station
      rw [length_mode (by decide)]
    · cases station

/-- **A command fits in the array it is formatted in unless it is short.** -/
theorem fits_iff (s : WifiState) (call : WifiCall) (checked : call.Checked s) :
    call.Fits s ↔ ¬ call.Short := by
  cases call with
  | init modeType echoOff mode autoLinkOff =>
      exact iff_of_true (init_fits s modeType echoOff mode autoLinkOff) id
  | setMode modetype mode =>
      obtain ⟨one, three⟩ : 1 ≤ modetype ∧ modetype ≤ 3 := checked
      have inRange : ¬ (modetype < 1 ∨ 3 < modetype) :=
        not_or.mpr ⟨UInt8.not_lt.mpr one, UInt8.not_lt.mpr three⟩
      have run : (WifiCall.setMode modetype mode).run s =
          some (s, sendFormatted 14 (.mode modetype) mode) := by
        rw [WifiCall.run, wifiSetMode, if_neg inRange]
      rw [fits_sendFormatted run, length_mode three]
      exact iff_of_true (by decide) id
  | setTxMode modetype cipMode cipSend =>
      have one : modetype ≤ 1 := checked
      have inRange : ¬ (modetype < 0 ∨ 1 < modetype) :=
        not_or.mpr ⟨UInt8.not_lt.mpr UInt8.zero_le, UInt8.not_lt.mpr one⟩
      refine iff_of_false ?_ (not_not.mpr trivial)
      rintro ⟨next, effects, run, fits⟩
      have formatted : .sprintf 14 (.cipMode modetype) ∈ effects := by
        rw [WifiCall.run, wifiSetTxMode, if_neg inRange] at run
        split at run <;> cases run <;> exact List.mem_cons_self
      have tooLong := fits 14 (.cipMode modetype) formatted
      rw [length_cipMode (UInt8.le_trans one (by decide))] at tooLong
      exact absurd tooLong (by decide)
  | setIp ip staIp =>
      have accepted : wifiCheckIp ip = some 1 := checked
      have run : (WifiCall.setIp ip staIp).run s =
          some (s, sendFormatted 30 (.staIp ip) staIp) := by
        rw [WifiCall.run, wifiSetIp, accepted]
        rfl
      have few := length_of_checkIp accepted
      rw [fits_sendFormatted run, length_staIp]
      exact iff_of_true (by omega) id
  | linkSsid ssid password linkAp =>
      have run : (WifiCall.linkSsid ssid password linkAp).run s =
          some (if linkAp = .ok then { s with apState := 1 } else s,
            sendFormatted 40 (.linkAp ssid password) linkAp) := rfl
      rw [fits_sendFormatted run, length_linkAp, WifiCall.Short]
      omega
  | tcpConnect serverIp serverPort cipStart =>
      obtain ⟨idle, accepted, port⟩ : s.sendState ≠ 1 ∧ wifiCheckIp serverIp = some 1 ∧
        wifiCheckPort serverPort = 1 := checked
      have run : (WifiCall.tcpConnect serverIp serverPort cipStart).run s =
          some (if cipStart = .ok then { s with connectState := 1 } else s,
            sendFormatted 100 (.cipStart serverIp serverPort) cipStart) := by
        rw [WifiCall.run, wifiTcpConnect, if_neg idle, accepted, port]
        rfl
      rw [fits_sendFormatted run, length_cipStart, WifiCall.Short]
      omega
  | disconnnect cipClose =>
      refine iff_of_true ⟨s, _, rfl, ?_⟩ id
      intro size command member
      cases List.mem_singleton.mp member

/-- An address set, and room for it. -/
theorem fits_iff_setIp :
    (WifiCall.setIp ⟨ascii "192.168.123.123", by decide⟩ .ok).Fits .reset ↔
      ¬ (WifiCall.setIp ⟨ascii "192.168.123.123", by decide⟩ .ok).Short :=
  fits_iff .reset _ (show wifiCheckIp _ = some 1 by decide)

/-- `AT+CIPMODE=1`, its line end and its NUL are 15 bytes, and the array has 14. -/
theorem cipMode_overflows :
    ¬ ∀ (s : WifiState) (call : WifiCall), call.Checked s → call.Fits s := by
  intro all
  have checked : (WifiCall.setTxMode 1 .ok .ok).Checked .reset := UInt8.le_refl 1
  obtain ⟨next, effects, run, fits⟩ := all .reset (.setTxMode 1 .ok .ok) checked
  cases run
  have tooLong := fits 14 (.cipMode 1) List.mem_cons_self
  rw [length_cipMode (by decide)] at tooLong
  exact absurd tooLong (by decide)

end EinkLiteOS.Device
