import AddMessenger.JsonText
import AddMessenger.Simulations
import Mathlib.Data.List.AList

/-!
# Pinned servers

`PinnedCertVerifier` in `client/src/main.rs`: WebPKI first, and then the pin of the host, taken at
the first sight and kept in a file that every first sight reads as a whole and writes again. The
file may be out of reach or end up short. The operator may delete an entry or the whole file.
-/

namespace TlsPins

open ByteStrings Delimited JsonText Mealy

/-- Hosts and the hashes of the keys of their issuers. -/
abbrev Pins := AList fun _ : String => String

def entryText (entry : Sigma fun _ : String => String) : List Char :=
  ' ' :: ' ' :: (quoted entry.1 ++ ':' :: ' ' :: quoted entry.2)

def entriesText : List (Sigma fun _ : String => String) → List Char
  | [] => ['\x7b', '\x7d']
  | entry :: rest =>
    '\x7b' :: '\n' :: (entryText entry ++
      (closed (fun entry => ',' :: '\n' :: entryText entry) '\n' rest ++ ['\x7d']))

/-- `serde_json::to_string_pretty`. -/
def toStringPretty (pins : Pins) : String := String.ofList (entriesText pins.entries)

/-- `serde_json::from_str` at the type of the cache: the pins are read back from their text, and a
text that ends too early is not read. -/
structure ReadsPins (fromStr : String → Option Pins) : Prop where
  back : ∀ pins, ∃ read, fromStr (toStringPretty pins) = some read ∧
    ∀ host, read.lookup host = pins.lookup host
  short : ∀ pins n, n < (asBytes (toStringPretty pins)).length →
    fromStr ((fromUtf8 ((asBytes (toStringPretty pins)).take n)).getD "") = none

theorem entryText_delimits : Delimits Anything entryText := by
  rintro ⟨host, hex⟩ ⟨host', hex'⟩ a b _ _ same
  simp only [entryText, List.cons_append, List.append_assoc, List.cons.injEq, true_and] at same
  obtain ⟨rfl, rest⟩ := quoted_delimits host host' _ _ trivial trivial same
  simp only [List.cons.injEq, true_and] at rest
  obtain ⟨rfl, after⟩ := quoted_delimits hex hex' a b trivial trivial rest
  exact ⟨rfl, after⟩

/-- No text of pins goes on as another. -/
theorem entriesText_delimits : Delimits Anything entriesText := by
  have tail (rest : List (Sigma fun _ : String => String)) :
      DelimitsAt Anything (closed (fun entry => ',' :: '\n' :: entryText entry) '\n') rest :=
    closed_delimits (fun entry _ => ((entryText_delimits entry).cons '\n').cons ',')
      (fun _ _ _ same => absurd (List.cons.inj same).1 (by decide)) (fun _ => trivial)
      fun _ _ => trivial
  intro xs ys a b _ _ same
  match xs, ys with
  | [], [] => exact ⟨rfl, by simpa [entriesText] using same⟩
  | [], y :: ys => simp [entriesText] at same
  | x :: xs, [] => simp [entriesText] at same
  | x :: xs, y :: ys =>
    simp only [entriesText, List.cons_append, List.append_assoc, List.cons.injEq, true_and,
      List.nil_append] at same
    obtain ⟨rfl, rest⟩ := entryText_delimits x y _ _ trivial trivial same
    obtain ⟨rfl, closes⟩ := tail xs ys _ _ trivial trivial rest
    exact ⟨rfl, (List.cons.inj closes).2⟩

theorem toStringPretty_inj {pins others : Pins}
    (same : toStringPretty pins = toStringPretty others) : pins = others := by
  have chars := String.ofList_injective same
  exact AList.ext (entriesText_delimits.injective (a := []) trivial chars)

/-- A text whose bytes begin those of another begins it. -/
theorem prefix_of_asBytes_eq_take {text whole : String} {n : ℕ}
    (cut : asBytes text = (asBytes whole).take n) : text.toList <+: whole.toList := by
  apply List.isPrefix_of_utf8Encode_append_eq_utf8Encode ⟨((asBytes whole).drop n).toArray⟩
  rw [String.utf8Encode_toList, String.utf8Encode_toList]
  have joined := List.take_append_drop n (asBytes whole)
  rw [← cut] at joined
  apply ByteArray.ext
  apply Array.toList_inj.mp
  simpa [asBytes] using joined

/-- No text of pins ends inside another. -/
theorem asBytes_toStringPretty_ne_take {pins others : Pins} {n : ℕ}
    (short : n < (asBytes (toStringPretty pins)).length) :
    asBytes (toStringPretty others) ≠ (asBytes (toStringPretty pins)).take n := by
  intro cut
  obtain ⟨rest, joined⟩ := prefix_of_asBytes_eq_take cut
  simp only [toStringPretty, String.toList_ofList] at joined
  have same : others = pins := by
    apply AList.ext
    apply (entriesText_delimits others.entries pins.entries rest [] trivial trivial ?_).1
    rw [joined, List.append_nil]
  have sizes := congrArg List.length cut
  rw [same, List.length_take] at sizes
  omega

/-- How `fs::write` ends: the file cannot be opened, or at most so many bytes reach it. -/
inductive Write where
  | unopened
  | upTo (bytes : ℕ)

def loadPins (fromStr : String → Option Pins) : Option Bytes → Pins
  | none => ∅
  | some bytes => (fromStr ((fromUtf8 bytes).getD "")).getD ∅

def savePins (file : Option Bytes) (pins : Pins) : Write → Option Bytes
  | .unopened => file
  | .upTo n => some ((asBytes (toStringPretty pins)).take n)

/-- What a server shows. -/
structure Presented where
  endEntity : Bytes
  intermediates : List Bytes
  serverName : String
  ocspResponse : Bytes
  now : ℕ

inductive TlsError where
  | unknownIssuer
  | other (text : String)

/-- The WebPKI verifier over the trust store, the raw public key of a certificate, and the
digest. -/
structure Tls where
  webpki : Presented → Except TlsError Unit
  publicKey : Bytes → Option Bytes
  sha256 : Bytes → Bytes

def issuerDer (c : Presented) : Bytes := c.intermediates.head?.getD c.endEntity

def presentedPin (T : Tls) (c : Presented) : Option String :=
  (T.publicKey (issuerDer c)).map fun raw => hexEncode (T.sha256 raw)

def verifyServerCert (T : Tls) (fromStr : String → Option Pins) (file : Option Bytes)
    (c : Presented) (write : Write) : Except TlsError Unit × Option Bytes :=
  match T.webpki c with
  | .error e => (.error e, file)
  | .ok () =>
    match presentedPin T c with
    | none => (.error .unknownIssuer, file)
    | some hex =>
      match (loadPins fromStr file).lookup c.serverName with
      | some pinned => (if pinned = hex then .ok () else .error .unknownIssuer, file)
      | none => (.ok (), savePins file ((loadPins fromStr file).insert c.serverName hex) write)

inductive Event where
  | connect (c : Presented) (write : Write)
  | deleteEntry (host : String)
  | deleteFile

def step (T : Tls) (fromStr : String → Option Pins) (file : Option Bytes) :
    Event → Except TlsError Unit × Option Bytes
  | .connect c write => verifyServerCert T fromStr file c write
  | .deleteEntry host =>
    (.ok (), file.map fun _ => asBytes (toStringPretty ((loadPins fromStr file).erase host)))
  | .deleteFile => (.ok (), none)

/-- A client that never forgets. -/
def tofu (T : Tls) (t : String → Option String) : Event →
    Except TlsError Unit × (String → Option String)
  | .connect c _ =>
    match T.webpki c with
    | .error e => (.error e, t)
    | .ok () =>
      match presentedPin T c with
      | none => (.error .unknownIssuer, t)
      | some hex =>
        match t c.serverName with
        | some pinned => (if pinned = hex then .ok () else .error .unknownIssuer, t)
        | none => (.ok (), Function.update t c.serverName (some hex))
  | .deleteEntry host => (.ok (), Function.update t host none)
  | .deleteFile => (.ok (), fun _ => none)

/-- The pins in the file are those of the hosts seen. -/
def Remembers (fromStr : String → Option Pins) (file : Option Bytes)
    (t : String → Option String) : Prop :=
  ∀ host, (loadPins fromStr file).lookup host = t host

/-- A host is seen for the first time, with this pin. -/
structure FirstSight (T : Tls) (fromStr : String → Option Pins) (file : Option Bytes)
    (c : Presented) (hex : String) : Prop where
  valid : T.webpki c = .ok ()
  pin : presentedPin T c = some hex
  fresh : (loadPins fromStr file).lookup c.serverName = none

/-- The write takes the whole text. -/
def Write.Whole (pins : Pins) : Write → Prop
  | .unopened => False
  | .upTo n => (asBytes (toStringPretty pins)).length ≤ n

/-- A pin that is taken gets into the file. -/
def Kept (T : Tls) (fromStr : String → Option Pins) (file : Option Bytes) : Event → Prop
  | .connect c write =>
    ∀ hex, FirstSight T fromStr file c hex →
      write.Whole ((loadPins fromStr file).insert c.serverName hex)
  | _ => True

section

variable {T : Tls} {fromStr : String → Option Pins}

theorem lookup_loadPins_text (reads : ReadsPins fromStr) (pins : Pins) (host : String) :
    (loadPins fromStr (some (asBytes (toStringPretty pins)))).lookup host = pins.lookup host := by
  obtain ⟨read, parsed, same⟩ := reads.back pins
  simp only [loadPins, fromUtf8_asBytes, Option.getD_some, parsed]
  exact same host

theorem loadPins_short (reads : ReadsPins fromStr) {pins : Pins} {n : ℕ}
    (cut : ¬ (asBytes (toStringPretty pins)).length ≤ n) :
    loadPins fromStr (some ((asBytes (toStringPretty pins)).take n)) = ∅ := by
  simp only [loadPins, reads.short pins n (Nat.lt_of_not_le cut), Option.getD_none]

theorem lookup_insert_eq_update (pins : Pins) {t : String → Option String}
    (same : ∀ host, pins.lookup host = t host) (name hex host : String) :
    (pins.insert name hex).lookup host = Function.update t name (some hex) host := by
  by_cases here : host = name
  · subst here
    simp
  · simp [here, AList.lookup_insert_ne here, same host]

/-- A new pin is in the file exactly when it was written whole. -/
theorem remembers_savePins_iff (reads : ReadsPins fromStr)
    {file : Option Bytes} {t : String → Option String} (holds : Remembers fromStr file t)
    {name : String} (fresh : (loadPins fromStr file).lookup name = none) (hex : String)
    (write : Write) :
    Remembers fromStr (savePins file ((loadPins fromStr file).insert name hex) write)
        (Function.update t name (some hex)) ↔
      write.Whole ((loadPins fromStr file).insert name hex) := by
  have lost (file' : Option Bytes) (missing : (loadPins fromStr file').lookup name = none) :
      ¬ Remembers fromStr file' (Function.update t name (some hex)) := by
    intro there
    have found := there name
    rw [missing, Function.update_self] at found
    cases found
  cases write with
  | unopened => exact iff_of_false (lost file fresh) id
  | upTo n =>
    simp only [savePins, Write.Whole]
    by_cases whole : (asBytes (toStringPretty ((loadPins fromStr file).insert name hex))).length ≤ n
    · refine iff_of_true ?_ whole
      intro host
      rw [List.take_of_length_le whole, lookup_loadPins_text reads]
      exact lookup_insert_eq_update _ holds name hex host
    · refine iff_of_false (lost _ ?_) whole
      rw [loadPins_short reads whole]
      rfl

/-- A step answers as the client that never forgets. -/
theorem step_answer {file : Option Bytes} {t : String → Option String}
    (holds : Remembers fromStr file t) (a : Event) :
    (step T fromStr file a).1 = (tofu T t a).1 := by
  cases a with
  | connect c write =>
    simp only [step, verifyServerCert, tofu, holds c.serverName]
    cases T.webpki c with
    | error e => rfl
    | ok u =>
      cases presentedPin T c with
      | none => rfl
      | some hex => cases t c.serverName <;> rfl
  | deleteEntry host => rfl
  | deleteFile => rfl

/-- A step keeps the file right exactly when it keeps its pin. -/
theorem step_remembers_iff (reads : ReadsPins fromStr) {file : Option Bytes}
    {t : String → Option String} (holds : Remembers fromStr file t) (a : Event) :
    Remembers fromStr (step T fromStr file a).2 (tofu T t a).2 ↔ Kept T fromStr file a := by
  cases a with
  | connect c write =>
    have same := holds c.serverName
    simp only [step, verifyServerCert, tofu]
    cases valid : T.webpki c with
    | error e =>
      refine iff_of_true holds fun hex first => ?_
      cases valid.symm.trans first.valid
    | ok u =>
      cases pin : presentedPin T c with
      | none =>
        refine iff_of_true holds fun hex first => ?_
        cases pin.symm.trans first.pin
      | some hex =>
        cases found : (loadPins fromStr file).lookup c.serverName with
        | some pinned =>
          rw [← same, found]
          refine iff_of_true holds fun _ first => ?_
          cases found.symm.trans first.fresh
        | none =>
          rw [← same, found]
          refine (remembers_savePins_iff reads holds found hex write).trans ?_
          constructor
          · intro whole other first
            obtain rfl := Option.some.inj (pin.symm.trans first.pin)
            exact whole
          · intro kept
            exact kept hex ⟨valid, pin, found⟩
  | deleteEntry host =>
    refine iff_of_true ?_ trivial
    intro other
    cases file with
    | none =>
      have empty : t = fun _ => none := funext fun h => (holds h).symm.trans rfl
      simp [step, tofu, empty, loadPins]
    | some bytes =>
      simp only [step, tofu, Option.map_some, lookup_loadPins_text reads]
      by_cases here : other = host
      · subst here
        simp
      · rw [AList.lookup_erase_ne here, Function.update_of_ne here, holds other]
  | deleteFile => exact iff_of_true (fun _ => rfl) trivial

theorem verifyServerCert_known {file : Option Bytes} {c : Presented} {hex : String}
    (valid : T.webpki c = .ok ()) (pin : presentedPin T c = some hex)
    (found : (loadPins fromStr file).lookup c.serverName = some hex) (write : Write) :
    (verifyServerCert T fromStr file c write).1 = .ok () := by
  simp [verifyServerCert, valid, pin, found]

/-- The file has the pins of trust on first use at every point of a run exactly when every new pin
of the run is kept, and then every connection is answered accordingly. -/
theorem pins_follow_iff (reads : ReadsPins fromStr) {file : Option Bytes}
    {t : String → Option String} (start : Remembers fromStr file t) (acts : List Event) :
    ((∀ front back, acts = front ++ back →
        Remembers fromStr (final (step T fromStr) file front) (final (tofu T) t front)) ↔
      Along (step T fromStr) (Kept T fromStr) file acts) ∧
    (Along (step T fromStr) (Kept T fromStr) file acts →
      outputs (step T fromStr) file acts = outputs (tofu T) t acts) := by
  have one : ∀ s t a, Remembers fromStr s t →
      (Remembers fromStr (step T fromStr s a).2 (tofu T t a).2 ↔ Kept T fromStr s a) :=
    fun _ _ a holds => step_remembers_iff reads holds a
  constructor
  · exact forall_related_iff_along one start acts
  · exact outputs_eq_of_along one (fun _ _ a holds => step_answer holds a) start

/-- The pin of the host is left alone by the operator. -/
def Event.Spares (host : String) : Event → Prop
  | .connect _ _ => True
  | .deleteEntry other => other ≠ host
  | .deleteFile => False

/-- What is known of a host stays known. -/
theorem tofu_keeps {t : String → Option String} {host hex : String} (known : t host = some hex)
    {a : Event} (spares : a.Spares host) : (tofu T t a).2 host = some hex := by
  cases a with
  | connect c write =>
    simp only [tofu]
    cases T.webpki c with
    | error e => exact known
    | ok u =>
      cases presentedPin T c with
      | none => exact known
      | some pin =>
        cases found : t c.serverName with
        | some pinned => exact known
        | none =>
          have differ : host ≠ c.serverName := by
            rintro rfl
            cases known.symm.trans found
          simpa [Function.update_of_ne differ] using known
  | deleteEntry other => simpa [tofu, Function.update_of_ne (Ne.symm spares)] using known
  | deleteFile => exact spares.elim

theorem tofu_run_keeps {t : String → Option String} {host hex : String}
    (known : t host = some hex) {acts : List Event} (spared : ∀ a ∈ acts, a.Spares host) :
    final (tofu T) t acts host = some hex := by
  induction acts generalizing t with
  | nil => exact known
  | cons a rest ih =>
    obtain ⟨here, later⟩ := List.forall_mem_cons.mp spared
    exact ih (tofu_keeps known here) later

/-- A connection that is accepted leaves its pin known. -/
theorem tofu_accepted {t : String → Option String} {c : Presented} {write : Write}
    (accepted : (tofu T t (.connect c write)).1 = .ok ()) :
    ∃ hex, presentedPin T c = some hex ∧
      (tofu T t (.connect c write)).2 c.serverName = some hex := by
  simp only [tofu] at accepted ⊢
  cases valid : T.webpki c with
  | error e => simp [valid] at accepted
  | ok u =>
    cases pin : presentedPin T c with
    | none => simp [valid, pin] at accepted
    | some hex =>
      cases found : t c.serverName with
      | none => exact ⟨hex, rfl, by simp⟩
      | some pinned =>
        refine ⟨hex, rfl, ?_⟩
        by_cases equal : pinned = hex
        · simpa [equal] using found
        · simp [valid, pin, found, equal] at accepted

/-- The pin keeps out nobody whom WebPKI lets in: whoever puts the certificate of the pinned
issuer in front of his own chain is accepted. -/
theorem impostor_passes (reads : ReadsPins fromStr)
    (unordered : ∀ c extra, T.webpki c = .ok () →
      T.webpki { c with intermediates := extra :: c.intermediates } = .ok ())
    {file : Option Bytes} {t : String → Option String} (start : Remembers fromStr file t)
    (c : Presented) {write : Write} (back : List Event)
    (accepted : (step T fromStr file (.connect c write)).1 = .ok ())
    (kept : Along (step T fromStr) (Kept T fromStr) file (.connect c write :: back))
    (spared : ∀ a ∈ back, a.Spares c.serverName) (other : Presented)
    (host : other.serverName = c.serverName) (valid : T.webpki other = .ok ()) (last : Write) :
    (verifyServerCert T fromStr (final (step T fromStr) file (.connect c write :: back))
      { other with intermediates := issuerDer c :: other.intermediates } last).1 = .ok () := by
  have follows : Remembers fromStr (final (step T fromStr) file (.connect c write :: back))
      (final (tofu T) t (.connect c write :: back)) :=
    ((pins_follow_iff reads start _).1.mpr kept) _ [] (List.append_nil _).symm
  rw [step_answer start] at accepted
  obtain ⟨hex, pin, known⟩ := tofu_accepted accepted
  have still : final (tofu T) (tofu T t (.connect c write)).2 back c.serverName = some hex :=
    tofu_run_keeps known spared
  have found := (follows c.serverName).trans still
  have shown : presentedPin T { other with intermediates := issuerDer c :: other.intermediates } =
      some hex := by
    simpa [presentedPin, issuerDer] using pin
  rw [← host] at found
  exact verifyServerCert_known (unordered other (issuerDer c) valid) shown found last

end

open Classical in
/-- A reader of exactly the texts that are written. -/
noncomputable def readPins (text : String) : Option Pins :=
  if written : ∃ pins, toStringPretty pins = text then some written.choose else none

theorem readPins_reads : ReadsPins readPins where
  back pins := by
    have written : ∃ others, toStringPretty others = toStringPretty pins := ⟨pins, rfl⟩
    refine ⟨pins, ?_, fun _ => rfl⟩
    rw [readPins, dif_pos written, toStringPretty_inj written.choose_spec]
  short pins n cut := by
    rw [readPins, dif_neg]
    rintro ⟨others, same⟩
    cases read : fromUtf8 ((asBytes (toStringPretty pins)).take n) with
    | none =>
      rw [read, Option.getD_none] at same
      have chars := congrArg String.toList same
      cases entries : others.entries <;> simp [toStringPretty, entries, entriesText] at chars
    | some text =>
      rw [read, Option.getD_some] at same
      apply asBytes_toStringPretty_ne_take cut
      rw [same, ← fromUtf8_eq_some read]

/-- Certificates of three bytes: the issuer, the subject and the key. -/
def smallTls : Tls where
  webpki c :=
    if c.intermediates.any fun der => der[1]? = c.endEntity[0]? then .ok ()
    else .error .unknownIssuer
  publicKey der := der[2]?.map fun key => [key]
  sha256 raw := raw

def honest : Presented := ⟨[1, 10, 0x70], [[0, 1, 0x11]], "relay-eu.gnoppix.org", [], 0⟩

def impostor : Presented := ⟨[2, 10, 0x90], [[0, 2, 0x22]], "relay-eu.gnoppix.org", [], 1⟩

theorem pins_follow_small :
    let acts := [Event.connect honest (.upTo 200), .connect impostor .unopened]
    ((∀ front back, acts = front ++ back →
        Remembers readPins (final (step smallTls readPins) none front)
          (final (tofu smallTls) (fun _ => none) front)) ↔
      Along (step smallTls readPins) (Kept smallTls readPins) none acts) ∧
    (Along (step smallTls readPins) (Kept smallTls readPins) none acts →
      outputs (step smallTls readPins) none acts =
        outputs (tofu smallTls) (fun _ => none) acts) :=
  pins_follow_iff readPins_reads (fun _ => rfl) _

/-- The impostor with the certificate of the authority of the honest server in front. -/
theorem impostor_passes_small :
    (verifyServerCert smallTls readPins
      (final (step smallTls readPins) none [.connect honest (.upTo 200)])
      { impostor with intermediates := [[0, 1, 0x11], [0, 2, 0x22]] } .unopened).1 = .ok () := by
  refine impostor_passes (t := fun _ => none) readPins_reads ?_ (fun _ => rfl) honest [] rfl
    ⟨?_, trivial⟩ (by simp) impostor rfl rfl .unopened
  · intro c extra valid
    simp only [smallTls] at valid ⊢
    split at valid
    case isTrue issued => simp [issued]
    case isFalse => cases valid
  · intro hex first
    obtain rfl := Option.some.inj (first.pin.symm.trans
      (show presentedPin smallTls honest = some "11" by decide +kernel))
    exact (by decide +kernel : (asBytes (toStringPretty
      ((∅ : Pins).insert "relay-eu.gnoppix.org" "11"))).length ≤ 200)

end TlsPins
