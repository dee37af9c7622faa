import Mathlib.Tactic.Common
import Mathlib.Data.Int.Init

/-!
# The app around the driver

`MainActivity` and `FormatService` as callbacks on one state. Every callback runs
whole on the main thread; what `UsbManager` answers during it is given with the
event. A format thread is spawned by `onStartCommand`, opens its device, is inside
`startStableFormat` and ends by a FORMAT_RESULT broadcast; these moments are
events of their own. Of the views only the status line and the format button's
enabled state are kept; animations, the progress views and the notification
are left out.
-/
namespace FormatStick

/-- A `UsbDevice`, with the classes of its interfaces. -/
structure UsbDevice where
  deviceId : ℤ
  productName : Option String
  interfaceClasses : List ℕ
  deriving DecidableEq

/-- The answers of `UsbManager` during one callback. -/
structure UsbManager where
  deviceList : List UsbDevice
  hasPermission : UsbDevice → Bool

/-- The first mass-storage device of the list. -/
def UsbManager.firstMassStorage (m : UsbManager) : Option UsbDevice :=
  m.deviceList.find? fun dev => dev.interfaceClasses.any fun c => c = 8

/-- The strings the status line is set to. -/
inductive Status
  | waiting
  | readyToFormat (name : String)
  | deviceFound (name : String)
  | disconnected
  | checkNotification
  | formatSuccess
  | formatError
  deriving DecidableEq

/-- The extras of the intent that starts the service. -/
structure ServiceIntent where
  usbDevice : Option UsbDevice
  clusterSize : ℤ
  partitionType : ℤ
  fsType : ℤ
  deriving DecidableEq

/-- The activity: `readyFor` records the device that the last run of `setupUsbReady` announced. -/
structure MainActivity where
  myUsbDevice : Option UsbDevice := none
  btnFormatEnabled : Bool := false
  textStatus : Status := .waiting
  readyFor : Option UsbDevice := none
  deriving DecidableEq

namespace MainActivity

def setupUsbReady (a : MainActivity) : MainActivity :=
  { a with
    btnFormatEnabled := true
    textStatus := .readyToFormat ((a.myUsbDevice.bind UsbDevice.productName).getD "USB")
    readyFor := a.myUsbDevice }

def resetUsbState (a : MainActivity) : MainActivity :=
  { a with myUsbDevice := none, btnFormatEnabled := false, textStatus := .disconnected }

def scanForUsbDevices (m : UsbManager) (a : MainActivity) : MainActivity :=
  match m.firstMassStorage with
  | some device =>
    let a := { a with myUsbDevice := some device }
    if m.hasPermission device then a.setupUsbReady
    -- permission is requested; the button stays as it is
    else { a with textStatus := .deviceFound (device.productName.getD "USB") }
  | none => a.resetUsbState

/-- `onCreate`, on the layout's initial views. -/
def onCreate (m : UsbManager) : MainActivity := scanForUsbDevices m {}

/-- The permission branch of `usbReceiver`. -/
def onUsbPermission (device : Option UsbDevice) (granted : Bool) (a : MainActivity) : MainActivity :=
  if granted then
    match device with
    | some it => { a with myUsbDevice := some it }.setupUsbReady
    | none => a
  else a

/-- The detach branch of `usbReceiver`. -/
def onUsbDetached (device : Option UsbDevice) (a : MainActivity) : MainActivity :=
  if device.map UsbDevice.deviceId = a.myUsbDevice.map UsbDevice.deviceId then a.resetUsbState else a

/-- The FORMAT_RESULT branch of `formatReceiver`. -/
def onFormatResult (m : UsbManager) (success : Bool) (a : MainActivity) : MainActivity :=
  scanForUsbDevices m
    { a with textStatus := if success then .formatSuccess else .formatError, btnFormatEnabled := true }

/-- The click listener of `btnFormat`; `canNotify` is the outcome of its check for the notification
permission. -/
def onClick (canNotify : Bool) (clusterSize partitionType fsType : ℤ) (a : MainActivity) :
    MainActivity × Option ServiceIntent :=
  if canNotify = false then (a, none)
  else
    ({ a with btnFormatEnabled := false, textStatus := .checkNotification },
      some ⟨a.myUsbDevice, clusterSize, partitionType, fsType⟩)

end MainActivity

/-- Where the thread of `onStartCommand` is. -/
inductive Phase
  | opening
  | formatting
  deriving DecidableEq

structure FormatThread where
  intent : ServiceIntent
  phase : Phase
  deriving DecidableEq

/-- The activity, the intents on their way to the service, the threads that have not left
`startStableFormat`, and the FORMAT_RESULT broadcasts on their way back. -/
structure App where
  activity : MainActivity
  starts : List ServiceIntent := []
  threads : List FormatThread := []
  results : List Bool := []
  deriving DecidableEq

/-- The events delivered to the app. -/
inductive Event
  | usbAttached
  | usbDetached (device : Option UsbDevice)
  | usbPermission (device : Option UsbDevice) (granted : Bool)
  | recreate
  | click (canNotify : Bool) (clusterSize partitionType fsType : ℤ)
  | startCommand
  | openDevice (thread : ℕ) (connected : Bool)
  | formatReturned (thread : ℕ) (success : Bool)
  | formatResult
  deriving DecidableEq

namespace App

/-- The app after the first `onCreate`. -/
def launch (m : UsbManager) : App := { activity := MainActivity.onCreate m }

/-- The click listener runs for an enabled button only. -/
def onClick (canNotify : Bool) (clusterSize partitionType fsType : ℤ) (s : App) : App :=
  if s.activity.btnFormatEnabled then
    let r := s.activity.onClick canNotify clusterSize partitionType fsType
    { s with activity := r.1, starts := s.starts ++ r.2.toList }
  else s

/-- `onStartCommand`, for the intent that has waited longest. -/
def onStartCommand (s : App) : App :=
  match s.starts with
  | [] => s
  | intent :: rest => { s with starts := rest, threads := s.threads ++ [⟨intent, .opening⟩] }

/-- The end of a thread: its `finally` block sends the result. -/
def finish (i : ℕ) (success : Bool) (s : App) : App :=
  { s with threads := s.threads.eraseIdx i, results := s.results ++ [success] }

/-- A thread reaches `openDevice`: it enters `startStableFormat` if it has a device and a connection. -/
def onOpenDevice (i : ℕ) (connected : Bool) (s : App) : App :=
  match s.threads[i]? with
  | some ⟨intent, .opening⟩ =>
    if intent.usbDevice.isSome ∧ connected = true then
      { s with threads := s.threads.set i ⟨intent, .formatting⟩ }
    else s.finish i false
  | _ => s

/-- A thread leaves `startStableFormat`. -/
def onFormatReturned (i : ℕ) (success : Bool) (s : App) : App :=
  match s.threads[i]? with
  | some ⟨_, .formatting⟩ => s.finish i success
  | _ => s

/-- The oldest FORMAT_RESULT broadcast arrives. -/
def onFormatResult (m : UsbManager) (s : App) : App :=
  match s.results with
  | [] => s
  | success :: rest => { s with activity := s.activity.onFormatResult m success, results := rest }

/-- One event. -/
def step (s : App) (x : UsbManager × Event) : App :=
  match x.2 with
  | .usbAttached => { s with activity := s.activity.scanForUsbDevices x.1 }
  | .usbDetached device => { s with activity := s.activity.onUsbDetached device }
  | .usbPermission device granted => { s with activity := s.activity.onUsbPermission device granted }
  | .recreate => { s with activity := MainActivity.onCreate x.1 }
  | .click canNotify clusterSize partitionType fsType => s.onClick canNotify clusterSize partitionType fsType
  | .startCommand => s.onStartCommand
  | .openDevice thread connected => s.onOpenDevice thread connected
  | .formatReturned thread success => s.onFormatReturned thread success
  | .formatResult => s.onFormatResult x.1

/-- The state after a run. -/
def run (s : App) (es : List (UsbManager × Event)) : App := es.foldl step s

end App

end FormatStick
