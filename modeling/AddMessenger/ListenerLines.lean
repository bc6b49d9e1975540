import AddMessenger.CliOutput
import AddMessenger.Mealy

/-!
# The lines of the listener

`handle_incoming_connection` in `client/src/main.rs` prints a line for each message that it
decrypts, and `startListenProcess` in `desktop-ui/electron/main.js` takes the messages out of
what the pipe brings. The pipe may cut the output into any chunks, windows may be made at any
time, and the listener prints other lines too.
-/

namespace ListenerLines

open ByteStrings ClientSessions CliOutput Patterns Pattern

variable (S : Signatures.Primitives)

/-- A decrypted message, and when it came. -/
structure Received where
  hours : Fin 24
  minutes : Fin 60
  seconds : Fin 61
  peerFp : String
  plaintext : String

def twoDigits (n : Nat) : String := if n < 10 then "0" ++ toString n else toString n

def Received.line (m : Received) : String :=
  "[" ++ twoDigits m.hours ++ ":" ++ twoDigits m.minutes ++ ":" ++ twoDigits m.seconds ++
    "] From: " ++ nullId S m.peerFp ++ " (" ++ m.peerFp ++ ") | " ++ m.plaintext

inductive Printed where
  | note (line : String)
  | received (m : Received)

def Printed.text : Printed → String
  | .note line => println line
  | .received m => println (m.line S)

def outputOf (printed : List Printed) : String := String.join (printed.map (Printed.text S))

def received (printed : List Printed) : List Received :=
  printed.filterMap fun
    | .note _ => none
    | .received m => some m

def isUpperHex (c : Char) : Bool := c.isDigit || ('A' ≤ c && c ≤ 'F')

def inboundRe : Pattern :=
  seq (word "[") (seq (many false isDot) (seq (word "] From: ") (seq (group nullIdRe)
    (seq (word " (") (seq (group (atLeastOne true isUpperHex)) (seq (word ") | ")
      (seq (group (many true isDot)) stop)))))))

structure Window where
  destroyed : Bool

/-- The event `add-incoming-message`. -/
structure Incoming where
  sender : String
  fingerprint : String
  text : String
  deriving DecidableEq, Repr

/-- The variable `mainWindow` of the module, and `listenBuf`. -/
structure Main where
  mainWindow : Option Window
  listenBuf : List Char

def atStart : Main := ⟨none, []⟩

/-- The window goes into a constant of the function's own. -/
def createWindow (s : Main) : Window × Main := (⟨false⟩, s)

def forwardInbound (s : Main) (line : List Char) : List Incoming :=
  match matchStart inboundRe line with
  | none => []
  | some m =>
    match s.mainWindow with
    | none => []
    | some win =>
      if win.destroyed then []
      else [⟨captured (some m) 0, captured (some m) 1, captured (some m) 2⟩]

/-- The lines that are complete, and what is left. -/
def takeLines : List Char → List (List Char) × List Char
  | [] => ([], [])
  | c :: rest =>
    let (lines, left) := takeLines rest
    if c = '\n' then ([] :: lines, left)
    else
      match lines with
      | [] => ([], c :: left)
      | line :: more => ((c :: line) :: more, left)

/-- `if (line) forwardInbound(line)`, for a line that is trimmed. -/
def forwardTrimmed (s : Main) (line : List Char) : List Incoming :=
  if jsTrim line = [] then [] else forwardInbound s (jsTrim line)

inductive Event where
  | createWindow
  | data (chunk : Bytes)
  | close

def step (s : Main) : Event → List Incoming × Main
  | .createWindow => ([], (createWindow s).2)
  | .data chunk =>
    let (lines, left) := takeLines (s.listenBuf ++ (fromUtf8Lossy chunk).toList)
    (lines.flatMap (forwardTrimmed s), { s with listenBuf := left })
  | .close => (forwardTrimmed s s.listenBuf, { s with listenBuf := [] })

def delivered (s : Main) (run : List Event) : List Incoming := (Mealy.outputs step s run).flatten

def dataOf (run : List Event) : Bytes :=
  run.flatMap fun
    | .data chunk => chunk
    | .createWindow | .close => []

/-- However the output comes, each message is delivered once, in order, with its sender and its
text. -/
def Faithful (s : Main) (printed : List Printed) : Prop :=
  ∀ run, dataOf run = asBytes (outputOf S printed) →
    (delivered s run).map (fun e => (e.sender, e.text)) =
      (received printed).map fun m => (nullId S m.peerFp, m.plaintext)

theorem createWindow_mainWindow (s : Main) : (createWindow s).2.mainWindow = s.mainWindow := rfl

theorem step_mainWindow (s : Main) (e : Event) : (step s e).2.mainWindow = s.mainWindow := by
  cases e with
  | createWindow => exact createWindow_mainWindow s
  | data chunk => rfl
  | close => rfl

variable {S}

theorem forwardTrimmed_no_window {s : Main} (no_window : s.mainWindow = none)
    (line : List Char) : forwardTrimmed s line = [] := by
  rw [forwardTrimmed, forwardInbound, no_window]
  split
  · rfl
  · split <;> rfl

/-- Without a window that the module knows nothing is delivered. -/
theorem delivered_no_window {s : Main} (no_window : s.mainWindow = none) (run : List Event) :
    delivered s run = [] := by
  have silent : ∀ t : Main, t.mainWindow = none → ∀ e, (step t e).1 = [] := by
    intro t unknown e
    cases e with
    | createWindow => rfl
    | data chunk =>
      exact List.flatMap_eq_nil_iff.mpr fun line _ => forwardTrimmed_no_window unknown line
    | close => exact forwardTrimmed_no_window unknown _
  rw [delivered]
  induction run generalizing s with
  | nil => rfl
  | cons e rest ih =>
    rw [Mealy.outputs, List.flatten_cons, silent s no_window e, List.nil_append]
    exact ih ((step_mainWindow s e).trans no_window)

theorem forwardTrimmed_sender {s : Main} {line : List Char} {e : Incoming}
    (member : e ∈ forwardTrimmed s line) : e.sender.length = 12 := by
  rw [forwardTrimmed] at member
  split at member
  · cases member
  · rw [forwardInbound] at member
    split at member
    · cases member
    · next m found =>
      split at member
      · cases member
      · split at member
        · cases member
        · cases List.mem_singleton.mp member
          exact captured_size (matchStart_sound found).2 (i := 0) rfl

/-- Whatever window there is, the sender of an event has 12 characters. -/
theorem delivered_sender {s : Main} {run : List Event} {e : Incoming}
    (member : e ∈ delivered s run) : e.sender.length = 12 := by
  rw [delivered] at member
  induction run generalizing s with
  | nil => cases member
  | cons event rest ih =>
    rw [Mealy.outputs, List.flatten_cons, List.mem_append] at member
    obtain here | later := member
    · cases event with
      | createWindow => cases here
      | data chunk =>
        obtain ⟨line, -, sent⟩ := List.mem_flatMap.mp here
        exact forwardTrimmed_sender sent
      | close => exact forwardTrimmed_sender here
    · exact ih later

/-- With any window, what is delivered is not the messages there are, unless there are none. -/
theorem received_eq_nil_of_faithful {s : Main} {printed : List Printed}
    (faithful : Faithful S s printed) : received printed = [] := by
  rw [List.eq_nil_iff_forall_not_mem]
  intro m member
  have same := faithful [.data (asBytes (outputOf S printed))] (List.append_nil _)
  have sent : (nullId S m.peerFp, m.plaintext) ∈
      (received printed).map fun m => (nullId S m.peerFp, m.plaintext) :=
    List.mem_map_of_mem member
  rw [← same] at sent
  obtain ⟨e, event, eq⟩ := List.mem_map.mp sent
  have short := delivered_sender event
  have long : 12 < (nullId S m.peerFp).length :=
    NullId.long (S := S) ⟨nullId S m.peerFp, m.peerFp, .inl rfl⟩
  have id : e.sender = nullId S m.peerFp := congrArg Prod.fst eq
  rw [← id, short] at long
  exact absurd long (lt_irrefl 12)

/-- The window gets the messages of a listener that has none. -/
theorem faithful_iff_none_received (printed : List Printed) :
    Faithful S atStart printed ↔ received printed = [] := by
  refine ⟨received_eq_nil_of_faithful, fun none run _ => ?_⟩
  rw [delivered_no_window rfl, none]
  rfl

/-- The text has a line of its own that looks like the listener's. -/
def forgery : Received :=
  ⟨12, 0, 0, "AABB", "hi\n[12:00:00] From: NN-aaaa-bbbb (CCDD) | pay me"⟩

/-- No window shows the message, and a window that the module knew would show the sender's
words as someone else's. -/
theorem message_lost_or_forged :
    ¬ Faithful Signatures.sumScheme atStart [.received forgery] ∧
      delivered ⟨some ⟨false⟩, []⟩
        [.data (asBytes (outputOf Signatures.sumScheme [.received forgery]))] =
          [⟨"NN-aaaa-bbbb", "CCDD", "pay me"⟩] := by
  constructor
  · intro faithful
    have same := faithful [.data (asBytes (outputOf Signatures.sumScheme [.received forgery]))]
      (List.append_nil _)
    rw [delivered_no_window rfl] at same
    cases same
  · decide +kernel

end ListenerLines
