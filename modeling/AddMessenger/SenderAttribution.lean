import AddMessenger.ReadCommand
import AddMessenger.RelayReplay

/-!
# Whose message a reader is shown

A message goes from a party to a relay, from there by `relay_fetch_all` to a reader, and
`Commands::Read` shows it under the null id that stands in the relay's entry. A run mixes
what any parties send to any relays with fetches and reads of one reader.

Who made a ciphertext is no part of the program: it is written down beside the run, by the
fingerprint of the signing key that the party holds.
-/

namespace SenderAttribution

open ByteStrings ClientSessions Contacts Handlers Handlers.Handler Mealy MessageStore Protocol
  ReadCommand RelayMailbox RelayReceipts RelayReplay RelayServer RelayTracking Tables

/-- What lets a forwarded message come to the checks. -/
def admits (cfg : ServerConfig) (fed : FederationState) (req : RelayForward) : Bool :=
  federationEnabled cfg && cfg.allowRelay && !knownUnauthenticated fed req.sourceRelayUrl &&
    url cfg ∉ req.via && req.hopCount < federationMaxRelayHops

/-- The gates before the checks and the one after them. -/
def passesGates (cfg : ServerConfig) (s : ServerState) (env : Env) : Request → Bool
  | .store req =>
    verifyRecipientTag cfg req.recipientNid (routingEpoch env.tagAt) req.recipientTag = .ok ()
  | .forward req => admits cfg s.federation req
  | _ => false

/-- The message a request puts into the mail: there is one, and nothing refuses it. -/
def accepted (cfg : ServerConfig) (s : ServerState) (env : Env) (req : Request) :
    Option StoreRequest :=
  (storeRequest cfg env req).filter fun q => passesGates cfg s env req && Accepted cfg s q env

/-- The call of `storeMessage` an action leads to. -/
def logged (cfg : ServerConfig) (s : ServerState) : Action → Option Stored
  | .message req env => (accepted cfg s env req).map fun q =>
    storing cfg.mail q.toMailboxStoreRequest env.keysAt env.mailAt
  | _ => none

section

variable {cfg : ServerConfig} {s : ServerState} {env : Env}

theorem storeChecks_mail (q : StoreRequest) :
    ((storeChecks cfg q env).run s).2.mail = s.mail :=
  storeChecks_keeps (Unchanged.refl ServerState.mail) (Unchanged.trans ServerState.mail)
    (fun sig data => requireSignature_keeps (fun _ _ => rfl) sig data _ _)
    (requireUnseen_keeps (fun _ _ => rfl) _ _ _) s

theorem store_log (q : MailboxStoreRequest) {α : Type} (a : α) :
    ((store cfg q env >>= fun _ => pure a).run s).2.mail.log =
      s.mail.log ++ [storing cfg.mail q env.keysAt env.mailAt] := by
  have kept : ((store cfg q env >>= fun _ => pure a).run s).2 = ((store cfg q env).run s).2 := by
    cases ran : (store cfg q env).run s with
    | mk result t =>
      cases result with
      | error e => rw [run_bind_of_error ran]
      | ok u =>
        rw [run_bind_of_ok ran]
        rfl
  rw [kept, store_run_state]
  exact storeMessage_log _ _ _ _ _ _

/-- What follows the checks is logged only where these let the message pass. -/
theorem checked_log (q : StoreRequest) {rest : Unit → Serve Reply} {calls : List Stored}
    (after : ∀ t : ServerState, t.mail = s.mail →
      ((rest ()).run t).2.mail.log = s.mail.log ++ calls) :
    ((storeChecks cfg q env >>= rest).run s).2.mail.log =
      s.mail.log ++ if Accepted cfg s q env then calls else [] := by
  have kept := @storeChecks_mail cfg s env q
  cases ran : (storeChecks cfg q env).run s with
  | mk result t =>
    rw [ran] at kept
    cases result with
    | error e =>
      have refused : ¬ Accepted cfg s q env := by simp [Accepted, ran]
      rw [run_bind_of_error ran, if_neg refused, List.append_nil, kept]
    | ok u =>
      have passed : Accepted cfg s q env := by simp [Accepted, ran]
      rw [run_bind_of_ok ran, if_pos passed]
      exact after t kept

theorem logged_eq {req : Request} {q : StoreRequest} (asked : storeRequest cfg env req = some q) :
    (logged cfg s (.message req env)).toList =
      if Accepted cfg s q env then
        if passesGates cfg s env req then
          [storing cfg.mail q.toMailboxStoreRequest env.keysAt env.mailAt] else []
      else [] := by
  simp only [logged, accepted, asked, Option.filter_some, Bool.and_eq_true, decide_eq_true_eq]
  cases passesGates cfg s env req with
  | false => simp
  | true =>
    simp only [true_and, if_true]
    split <;> rfl

theorem relayStore_log (req : StoreRequest) :
    ((relayStore cfg req env).run s).2.mail.log =
      s.mail.log ++ (logged cfg s (.message (.store req) env)).toList := by
  rw [@logged_eq cfg s env (.store req) req rfl]
  refine checked_log req fun t same => ?_
  simp only [passesGates, decide_eq_true_eq]
  split
  · rename_i e wrong
    rw [if_neg (by simp [wrong]), List.append_nil, ← same]
    rfl
  · rename_i right
    rw [store_log, same, if_pos right]

theorem relayForward_log (req : RelayForward) :
    ((relayForward cfg req env).run s).2.mail.log =
      s.mail.log ++ (logged cfg s (.message (.forward req) env)).toList := by
  have gate : passesGates cfg s env (.forward req) = admits cfg s.federation req := rfl
  rw [@logged_eq cfg s env (.forward req) _ rfl, gate]
  have refused : ∀ {calls : List Stored} {condition : Prop} [Decidable condition],
      admits cfg s.federation req = false → s.mail.log = s.mail.log ++
        if condition then if admits cfg s.federation req then calls else [] else [] := by
    intro calls condition _ closed
    rw [closed, if_neg Bool.false_ne_true, ite_self, List.append_nil]
  unfold relayForward
  split
  · exact refused (by simp_all [admits])
  · split
    · exact refused (by simp_all [admits])
    · rw [run_bind_of_ok (show (asks _ : Serve Bool).run s = (.ok _, s) from rfl)]
      split
      · exact refused (by simp_all [admits])
      · split
        · exact refused (by simp_all [admits])
        · split
          · exact refused (by simp_all [admits])
          · have opened : admits cfg s.federation req = true := by simp_all [admits]
            rw [if_pos opened]
            exact checked_log _ fun t same => by rw [store_log, same]

/-- The operations on the mail other than storing are no calls. -/
theorem mailOperation_log {req : Request} {op : MailOperation}
    (isOp : mailOperation env req = some op) (mail : RelayState) :
    (mailStep cfg.mail mail op).2.log = mail.log := by
  cases req with
  | ack req =>
    obtain rfl := Option.some.inj isOp
    exact (ackMessage_shrinks _ _ _ _ _).log
  | purge req =>
    obtain rfl := Option.some.inj isOp
    exact (purgeAllMessages_shrinks _ _ _ _).log
  | readReceipt req =>
    obtain rfl := Option.some.inj isOp
    exact (receiveReceipt_shrinks _ _ _ _).log
  | delete req =>
    obtain rfl := Option.some.inj isOp
    exact (deleteMessage_shrinks _ _ _).log
  | store | fetch | status | forward | routeAdvertise | routeAdvertiseAck | whoHas | peerAuth
  | peerAuthReply => cases isOp

/-- A request that asks for no storing is not logged. -/
theorem handleMessage_log {req : Request} (other : storeRequest cfg env req = none) :
    Keeps (Unchanged fun s : ServerState => s.mail.log) (handleMessage cfg req env) := by
  refine handleMessage_keeps (Unchanged.refl _) (Unchanged.trans _)
    (fun fp key _ sig data => requireSignature_keeps (fun _ _ => rfl) sig data fp key)
    (fun fp nonce _ => requireUnseen_keeps (fun _ _ => rfl) fp nonce _)
    (fun q asked => ?_) (fun op isOp s => mailOperation_log isOp s.mail)
    (fun f _ s => rfl) (fun relayUrl _ s => rfl)
  rw [other] at asked
  cases asked

theorem serverStep_log (s : ServerState) (a : Action) :
    (serverStep cfg s a).2.mail.log = s.mail.log ++ (logged cfg s a).toList := by
  cases a with
  | message req env =>
    cases asked : storeRequest cfg env req with
    | none =>
      have same : (serverStep cfg s (.message req env)).2.mail.log = s.mail.log :=
        handleMessage_log asked s
      rw [same, logged, accepted, asked]
      exact (List.append_nil _).symm
    | some q =>
      cases req with
      | store req => exact relayStore_log req
      | forward req => exact relayForward_log req
      | _ => cases asked
  | connectToPeer relayUrl now => exact (List.append_nil _).symm
  | peerRoutes relayUrl now => exact (List.append_nil _).symm
  | cleanupExpiredRoutes now => exact (List.append_nil _).symm
  | cleanupExpired now sqlOk =>
    exact (cleanupExpired_shrinks now sqlOk).log.trans (List.append_nil _).symm

theorem serverStep_recorded {s : ServerState} (recorded : Recorded cfg.mail s.mail) (a : Action) :
    Recorded cfg.mail (serverStep cfg s a).2.mail := by
  have moved : ∀ t, MailMoves cfg s t → Recorded cfg.mail t.mail := by
    rintro t ⟨ops, same⟩
    rw [same]
    exact final_preserved (Recorded cfg.mail) (fun _ op => mailStep_recorded op) recorded ops
  cases a with
  | message req env => exact moved _ (handleMessage_mailMoves req s)
  | connectToPeer relayUrl now => exact recorded
  | peerRoutes relayUrl now => exact recorded
  | cleanupExpiredRoutes now => exact recorded
  | cleanupExpired now sqlOk => exact recorded.of_shrinks (cleanupExpired_shrinks now sqlOk)

/-- A fetch for the null id can come upon the message. -/
def Reaches (cfg : RelayMailbox.Config) (nid : String) (m : Stored) : Prop :=
  ∃ now, (m.row 0).addressed (mailboxKeys cfg nid now) = true

/-- What a fetch returns was logged, for this null id. -/
theorem fetchMessages_logged {mail : RelayState} (recorded : Recorded cfg.mail mail)
    {nid : String} {now : UInt64} {readNow : String → UInt64} {sqlOk : Bool} {e : MailboxEntry}
    (returned : e ∈ fetchMessages cfg.mail mail nid now readNow sqlOk) :
    ∃ m ∈ mail.log, Reaches cfg.mail nid m ∧ m.req.signedBlob = e.signedBlob ∧
      m.req.senderNid = e.senderNid := by
  -- from the table if it has an answer, else from the mailboxes in memory
  by_cases answers : SqlAnswers mail (mailboxKeys cfg.mail nid now) sqlOk
  · rw [fetchMessages_of_answers answers, mem_selectRows] at returned
    obtain ⟨-, rows, found, row, inside, pending, rfl⟩ := returned
    obtain ⟨m, logged, same⟩ := recorded.rows rows found row inside
    have addressed : row.addressed (mailboxKeys cfg.mail nid now) = true :=
      (Bool.and_eq_true_iff.mp pending).1
    have here : (m.row row.serial).addressed (mailboxKeys cfg.mail nid now) = true :=
      same ▸ addressed
    rw [row_addressed] at here
    exact ⟨m, List.mem_of_getElem? logged, ⟨now, (row_addressed m 0 _).mpr here⟩,
      (congrArg Row.signedBlob same).symm, (congrArg Row.senderNid same).symm⟩
  · rw [fetchMessages_of_silent answers, mem_scanMailboxes] at returned
    obtain ⟨k, mb, first, found, inside⟩ := returned
    obtain ⟨m, logged, rfl, same⟩ :=
      recorded.entries k mb found e (List.mem_filter.mp inside).1
    exact ⟨m, List.mem_of_getElem? logged,
      ⟨now, (row_addressed m 0 _).mpr (.inl (List.mem_of_find?_eq_some first))⟩,
      (congrArg MailboxEntry.signedBlob same).symm, (congrArg MailboxEntry.senderNid same).symm⟩

theorem relayFetch_entries {req : MailboxFetchRequest} {entries : List MailboxEntry}
    (answered : ((relayFetch cfg req env).run s).1 = .ok (.entries entries)) :
    entries = fetchMessages cfg.mail s.mail req.recipientNid env.keysAt env.readAt env.sqlOk := by
  have ran : (relayFetch cfg req env).run s = (.ok (.entries entries), _) := Prod.ext answered rfl
  simp only [relayFetch, run_bind_iff, run_require_iff, checkTimestampFreshness_iff,
    requireSignature_iff, requireUnseen_iff, requireHmac_iff, run_asks_iff] at ran
  obtain ⟨_, _, ⟨-, rfl⟩, _, _, ⟨-, rfl⟩, _, _, ⟨-, rfl⟩, _, _, ⟨-, rfl⟩, _, _, ⟨-, rfl⟩, _, _,
    ⟨-, rfl⟩, same, -⟩ := ran
  exact (Reply.entries.inj same).symm

end

variable (F : Platform) (cfg : String → ServerConfig) (me : Party F)

/-- What `relay_fetch_all` takes from an entry. -/
structure Fetched where
  signedBlob : String
  senderNid : String
  senderFp : String

/-- The relays by their addresses, what the last fetch brought from each, and the reader's
store. `authors` is who was the first to make a ciphertext. -/
structure Network where
  relays : String → ServerState
  fetched : String → List Fetched
  store : Store
  authors : String → Option String

/-- The part of a blob that is decrypted. -/
def ciphertextOf (blob : String) : Option String :=
  match F.J.fromStr blob with
  | .error _ => none
  | .ok env => strField env "ciphertext"

/-- A ciphertext that nobody has made before is the party's. -/
def credit (authors : String → Option String) (party blob : String) : String → Option String :=
  match ciphertextOf F blob with
  | none => authors
  | some c => Function.update authors c (some ((authors c).getD party))

/-- What a fetch is signed with, and when. -/
structure FetchDraws where
  senderSig : String
  timestamp : Doubles.F64
  nonce : String
  requesterVerifyingKey : String

variable {F} in
def fetchRequest (me : Party F) (draws : FetchDraws) : MailboxFetchRequest where
  recipientNid := me.identity.nullId
  authHmac := ""
  senderSig := draws.senderSig
  requesterFp := me.identity.fingerprint
  timestamp := draws.timestamp
  nonce := draws.nonce
  requesterVerifyingKey := draws.requesterVerifyingKey

/-- What can happen. A relay handles a message that a party, holding the signing key of one
fingerprint, has sent, or one of its own tasks; a fetch may come to nothing; and `other` is
whatever else the reader's client does with its store. -/
inductive Act where
  | encrypt (party blob : String)
  | relay (url party : String) (act : Action)
  | fetch (url : String) (draws : FetchDraws) (env : Env) (arrives : Bool)
  | read (urls : List String) (contacts : ContactList) (o : Options)
      (written : Nat → Except String Unit)
  | other (store : Store)

/-- The blob that comes with a message to a relay. -/
def submitted : Action → Option String
  | .message (.store req) _ => some req.signedBlob
  | .message (.forward req) _ => some req.signedBlob
  | _ => none

/-- The entries of an answer; none if the relay refuses. -/
def answerEntries : Except Refusal Reply → List Fetched
  | .ok (.entries entries) => entries.map fun e => ⟨e.signedBlob, e.senderNid, e.senderFp⟩
  | _ => []

/-- The results of `relay_fetch_all`, relay by relay. -/
def fetchedEntries (n : Network) (urls : List String) (written : Nat → Except String Unit) :
    List RelayEntry :=
  (urls.flatMap n.fetched).mapIdx fun i e => ⟨e.signedBlob, e.senderNid, e.senderFp, written i⟩

/-- One step, and the messages it shows. -/
def step (n : Network) : Act → List Opened × Network
  | .encrypt party blob => ([], { n with authors := credit F n.authors party blob })
  | .relay url party act =>
    ([], { n with
      relays := Function.update n.relays url (serverStep (cfg url) (n.relays url) act).2
      authors := (submitted act).elim n.authors (credit F n.authors party) })
  | .fetch url draws env arrives =>
    let (answer, relay) :=
      serverStep (cfg url) (n.relays url) (.message (.fetch (fetchRequest me draws)) env)
    ([], { n with
      relays := Function.update n.relays url relay
      fetched := Function.update n.fetched url (if arrives then answerEntries answer else []) })
  | .read urls contacts o written =>
    let outcome := readCommand F me contacts o (fetchedEntries n urls written) n.store
    (outcome.shown, { n with fetched := fun _ => [], store := outcome.store })
  | .other store => ([], { n with store := store })

/-- Empty relays, with or without a table. -/
def start (pool : String → Bool) (store : Store) : Network :=
  ⟨fun url => started (pool url), fun _ => [], store, fun _ => none⟩

/-- The contacts a read goes by. -/
def Act.contacts : Act → ContactList
  | .read _ contacts _ _ => contacts
  | _ => ∅

/-- The message is shown as coming from a contact, and who made it holds the contact's key. -/
def FromContact (n : Network) (contacts : ContactList) (m : Opened) : Prop :=
  ∃ fp, contacts.lookup m.entry.senderNid = some fp ∧
    (ciphertextOf F m.entry.signedBlob).bind n.authors = some fp

/-- Every message a read shows, and every one it keeps to be listed by later reads, comes
from the contact it is shown under. -/
def Attributed (n : Network) : Act → Prop
  | .read urls contacts o written =>
    let outcome := readCommand F me contacts o (fetchedEntries n urls written) n.store
    (∀ m ∈ outcome.shown, FromContact F n contacts m) ∧
      ∀ row ∈ outcome.store.messages, row ∈ n.store.messages ∨
        ∃ m, FromContact F n contacts m ∧ row = rowOf F me n.store.dbKey m
  | _ => True

/-- Some read of the run finds the fingerprint under the null id. -/
def Listed (acts : List Act) (nid fp : String) : Prop :=
  ∃ a ∈ acts, a.contacts.lookup nid = some fp

/-- A relay takes in a message for the reader under the null id of a contact only if who
made its ciphertext, the party that sends it unless there was one before, is that contact. -/
def NamesMaker (listed : String → String → Prop) (n : Network) : Act → Prop
  | .relay url party (.message req env) =>
    ∀ q c fp, accepted (cfg url) (n.relays url) env req = some q →
      Reaches (cfg url).mail me.identity.nullId
        (storing (cfg url).mail q.toMailboxStoreRequest env.keysAt env.mailAt) →
      ciphertextOf F q.signedBlob = some c → listed q.senderNid fp →
      (n.authors c).getD party = fp
  | _ => True

/-- The ciphertext in the blob was made by the contact that the null id stands for. -/
def Vouched (listed : String → String → Prop) (authors : String → Option String)
    (blob nid : String) : Prop :=
  ∀ c, ciphertextOf F blob = some c →
    ∃ author, authors c = some author ∧ ∀ fp, listed nid fp → author = fp

/-- What the relays hold for the reader, and what was fetched of it, is vouched for. -/
structure Sound (listed : String → String → Prop) (n : Network) : Prop where
  recorded : ∀ url, Recorded (cfg url).mail (n.relays url).mail
  mail : ∀ url, ∀ m ∈ (n.relays url).mail.log, Reaches (cfg url).mail me.identity.nullId m →
    Vouched F listed n.authors m.req.signedBlob m.req.senderNid
  fetched : ∀ url, ∀ e ∈ n.fetched url, Vouched F listed n.authors e.signedBlob e.senderNid

section

variable {F cfg me} {listed : String → String → Prop} {n : Network}

theorem Vouched.mono {authors later : String → Option String} {blob nid : String}
    (kept : ∀ c author, authors c = some author → later c = some author)
    (vouched : Vouched F listed authors blob nid) : Vouched F listed later blob nid := by
  intro c isCiphertext
  obtain ⟨author, made, contact⟩ := vouched c isCiphertext
  exact ⟨author, kept c author made, contact⟩

/-- An author stays the author. -/
theorem credit_kept (party blob : String) {authors : String → Option String} (c author : String)
    (made : authors c = some author) : credit F authors party blob c = some author := by
  unfold credit
  cases ciphertextOf F blob with
  | none => exact made
  | some c' =>
    dsimp only
    by_cases same : c = c'
    · subst same
      rw [Function.update_self, made, Option.getD_some]
    · rw [Function.update_of_ne same, made]

theorem credit_self {authors : String → Option String} {party blob c : String}
    (isCiphertext : ciphertextOf F blob = some c) :
    credit F authors party blob c = some ((authors c).getD party) := by
  unfold credit
  rw [isCiphertext]
  exact Function.update_self _ _ _

theorem submitted_kept (party : String) (act : Action) {authors : String → Option String}
    (c author : String) (made : authors c = some author) :
    (submitted act).elim authors (credit F authors party) c = some author := by
  cases submitted act with
  | none => exact made
  | some blob => exact credit_kept party blob c author made

/-- Steps that leave the relays and what was fetched alone keep everything vouched for. -/
theorem Sound.of_authors (sound : Sound F cfg me listed n) {authors : String → Option String}
    (kept : ∀ c author, n.authors c = some author → authors c = some author) :
    Sound F cfg me listed { n with authors := authors } where
  recorded := sound.recorded
  mail := fun url m member reaches => (sound.mail url m member reaches).mono kept
  fetched := fun url e member => (sound.fetched url e member).mono kept

/-- What is accepted came with the message. -/
theorem submitted_of_accepted {s : ServerState} {env : Env} {req : Request} {q : StoreRequest}
    {c : ServerConfig} (passed : accepted c s env req = some q) :
    submitted (.message req env) = some q.signedBlob := by
  have asked : storeRequest c env req = some q := (Option.filter_eq_some_iff.mp passed).1
  cases req with
  | store req =>
    obtain rfl := Option.some.inj asked
    rfl
  | forward req =>
    obtain rfl := Option.some.inj asked
    rfl
  | _ => cases asked

theorem relays_recorded {relays : String → ServerState}
    (recorded : ∀ url, Recorded (cfg url).mail (relays url).mail) (url : String) (act : Action)
    (other : String) : Recorded (cfg other).mail
      (Function.update relays url (serverStep (cfg url) (relays url) act).2 other).mail := by
  by_cases here : other = url
  · subst here
    rw [Function.update_self]
    exact serverStep_recorded (recorded other) act
  · rw [Function.update_of_ne here]
    exact recorded other

/-- What is logged after a step of one relay was logged before, or the step has logged it. -/
theorem mem_relays_log {relays : String → ServerState} {url other : String} {act : Action}
    {m : Stored} (member : m ∈
      (Function.update relays url (serverStep (cfg url) (relays url) act).2 other).mail.log) :
    m ∈ (relays other).mail.log ∨ other = url ∧ logged (cfg url) (relays url) act = some m := by
  by_cases here : other = url
  · subst here
    rw [Function.update_self, serverStep_log] at member
    rcases List.mem_append.mp member with old | new
    · exact .inl old
    · exact .inr ⟨rfl, Option.mem_toList.mp new⟩
  · rw [Function.update_of_ne here] at member
    exact .inl member

/-- A relay's step: the mail it takes in is vouched for, since it names its maker. -/
theorem relay_sound (sound : Sound F cfg me listed n) {url party : String} {act : Action}
    (names : NamesMaker F cfg me listed n (.relay url party act)) :
    Sound F cfg me listed (step F cfg me n (.relay url party act)).2 where
  recorded := relays_recorded sound.recorded url act
  mail := fun other m member reaches => by
    rcases mem_relays_log member with old | ⟨rfl, new⟩
    · exact (sound.mail other m old reaches).mono (submitted_kept party act)
    · cases act with
      | message req env =>
        -- the blob that is taken in has been credited in this step
        obtain ⟨q, passed, rfl⟩ := Option.map_eq_some_iff.mp new
        simp only [step, submitted_of_accepted passed, Option.elim_some]
        intro c isCiphertext
        exact ⟨_, credit_self isCiphertext,
          fun fp contact => names q c fp passed reaches isCiphertext contact⟩
      | _ => cases new
  fetched := fun other e member =>
    (sound.fetched other e member).mono (submitted_kept party act)

/-- What an answer to a fetch brings was logged for the reader. -/
theorem answerEntries_logged {c : ServerConfig} {s : ServerState} {env : Env}
    (recorded : Recorded c.mail s.mail) {req : MailboxFetchRequest} {e : Fetched}
    (member : e ∈ answerEntries (serverStep c s (.message (.fetch req) env)).1) :
    ∃ m ∈ s.mail.log, Reaches c.mail req.recipientNid m ∧ m.req.signedBlob = e.signedBlob ∧
      m.req.senderNid = e.senderNid := by
  cases answer : (serverStep c s (.message (.fetch req) env)).1 with
  | error refusal =>
    rw [answer] at member
    cases member
  | ok reply =>
    rw [answer] at member
    cases reply with
    | entries entries =>
      obtain ⟨entry, inside, rfl⟩ := List.mem_map.mp member
      rw [relayFetch_entries answer] at inside
      exact fetchMessages_logged recorded inside
    | _ => cases member

/-- A fetch brings what the relay holds for the reader. -/
theorem fetch_sound (sound : Sound F cfg me listed n) (url : String) (draws : FetchDraws)
    (env : Env) (arrives : Bool) :
    Sound F cfg me listed (step F cfg me n (.fetch url draws env arrives)).2 where
  recorded := relays_recorded sound.recorded url (.message (.fetch (fetchRequest me draws)) env)
  mail := fun other m member reaches => by
    rcases @mem_relays_log cfg n.relays url other (.message (.fetch (fetchRequest me draws)) env)
      m member with old | ⟨-, new⟩
    · exact sound.mail other m old reaches
    · cases new
  fetched := fun other e member => by
    simp only [step] at member ⊢
    by_cases here : other = url
    · subst here
      rw [Function.update_self] at member
      cases arrives with
      | false => cases member
      | true =>
        obtain ⟨m, inLog, reaches, blob, nid⟩ :=
          answerEntries_logged (sound.recorded other) member
        rw [← blob, ← nid]
        exact sound.mail other m inLog reaches
    · rw [Function.update_of_ne here] at member
      exact sound.fetched other e member

theorem step_sound (sound : Sound F cfg me listed n) {a : Act}
    (names : NamesMaker F cfg me listed n a) : Sound F cfg me listed (step F cfg me n a).2 := by
  cases a with
  | encrypt party blob => exact sound.of_authors (credit_kept party blob)
  | relay url party act => exact relay_sound sound names
  | fetch url draws env arrives => exact fetch_sound sound url draws env arrives
  | read urls contacts o written =>
    exact ⟨sound.recorded, sound.mail, fun _ _ member => absurd member List.not_mem_nil⟩
  | other store => exact ⟨sound.recorded, sound.mail, sound.fetched⟩

theorem start_sound (pool : String → Bool) (store : Store) :
    Sound F cfg me listed (start pool store) where
  recorded := fun url => empty_recorded (pool url)
  mail := fun _ _ member => absurd member List.not_mem_nil
  fetched := fun _ _ member => absurd member List.not_mem_nil

theorem mem_openAll {entries : List RelayEntry} {store : Store} {m : Opened}
    (member : m ∈ (openAll F me entries store).1) :
    m.entry ∈ entries ∧ ∃ before after outcome,
      decryptEntry F me m.entry before = (⟨.ok m.text, outcome⟩, after) := by
  induction entries generalizing store with
  | nil => cases member
  | cons entry rest ih =>
    rw [openAll] at member
    split at member
    · obtain ⟨inside, opened⟩ := ih member
      exact ⟨List.mem_cons_of_mem _ inside, opened⟩
    · rename_i decrypted used after ran
      rcases List.mem_cons.mp member with rfl | later
      · exact ⟨List.mem_cons_self, store, after, used, ran⟩
      · obtain ⟨inside, opened⟩ := ih later
        exact ⟨List.mem_cons_of_mem _ inside, opened⟩

/-- Only a blob with a ciphertext is opened. -/
theorem ciphertextOf_relayOpen {blob senderNid senderFp : String} {store : Store}
    {opened : RelayOpened}
    (opens : relayOpen F blob senderNid senderFp me.identity.fingerprint me.kyber store =
      .ok opened) : ∃ c, ciphertextOf F blob = some c := by
  unfold relayOpen at opens
  split at opens
  · cases opens
  · rename_i env parsed
    rw [ciphertextOf, parsed]
    split at opens
    · cases opens
    · split at opens
      · cases opens
      · split at opens
        · cases opens
        · rename_i c found
          exact ⟨c, found⟩

theorem ciphertextOf_decrypted {entry : RelayEntry} {before after : Store} {text : String}
    {used : Option Use} (ran : decryptEntry F me entry before = (⟨.ok text, used⟩, after)) :
    ∃ c, ciphertextOf F entry.signedBlob = some c := by
  simp only [decryptEntry, relayDecryptMessage] at ran
  split at ran
  · cases ran
  · rename_i opened opens
    exact ciphertextOf_relayOpen opens

theorem mem_fetchedEntries {urls : List String} {written : Nat → Except String Unit}
    {entry : RelayEntry} (member : entry ∈ fetchedEntries n urls written) :
    ∃ url, ∃ e ∈ n.fetched url,
      e.signedBlob = entry.signedBlob ∧ e.senderNid = entry.senderNid := by
  obtain ⟨i, small, rfl⟩ := List.mem_mapIdx.mp member
  obtain ⟨url, -, inside⟩ := List.mem_flatMap.mp (List.getElem_mem small)
  exact ⟨url, _, inside, rfl, rfl⟩

section

variable {urls : List String} {contacts : ContactList} {o : Options}
  {written : Nat → Except String Unit}

/-- A read of a sound network shows what comes from the contacts it names. -/
theorem shown_of_sound (sound : Sound F cfg me listed n)
    (known : ∀ nid fp, contacts.lookup nid = some fp → listed nid fp) {m : Opened}
    (shown : m ∈ (readCommand F me contacts o (fetchedEntries n urls written) n.store).shown) :
    FromContact F n contacts m := by
  rw [readCommand_shown] at shown
  obtain ⟨⟨front, back, split, -⟩, contact⟩ := mem_taken.mp shown
  have opened : m ∈ (openAll F me (fetchedEntries n urls written) n.store).1 := by
    rw [split]
    exact List.mem_append_right _ List.mem_cons_self
  obtain ⟨inside, before, after, used, ran⟩ := mem_openAll opened
  obtain ⟨url, e, fetched, blob, nid⟩ := mem_fetchedEntries inside
  obtain ⟨c, isCiphertext⟩ := ciphertextOf_decrypted ran
  obtain ⟨fp, found⟩ := Option.isSome_iff_exists.mp contact
  have vouched := sound.fetched url e fetched
  rw [blob, nid] at vouched
  obtain ⟨author, made, isContact⟩ := vouched c isCiphertext
  refine ⟨fp, found, ?_⟩
  rw [isCiphertext, Option.bind_some, made, isContact fp (known _ fp found)]

/-- The rows of a read are the old ones and those of messages it has shown. -/
theorem row_of_shown {entries : List RelayEntry} {store : Store} {row : MessageRow}
    (kept : row ∈ (readCommand F me contacts o entries store).store.messages) :
    row ∈ store.messages ∨ ∃ m ∈ (readCommand F me contacts o entries store).shown,
      row = rowOf F me store.dbKey m := by
  rw [readCommand_messages] at kept
  rw [readCommand_shown]
  split at kept
  · exact .inl kept
  · rcases List.mem_append.mp ((foldl_insertNew_sublist _ _ _).subset kept) with old | new
    · exact .inl old
    · obtain ⟨m, shown, rfl⟩ := List.mem_map.mp new
      exact .inr ⟨m, shown, rfl⟩

end

theorem Attributed.shown {a : Act} (attributed : Attributed F me n a) :
    ∀ m ∈ (step F cfg me n a).1, FromContact F n a.contacts m := by
  cases a with
  | read urls contacts o written => exact attributed.1
  | encrypt | relay | fetch | other =>
    intro m member
    cases member

theorem attributed_of_sound (sound : Sound F cfg me listed n) {a : Act}
    (known : ∀ nid fp, a.contacts.lookup nid = some fp → listed nid fp) :
    Attributed F me n a := by
  cases a with
  | read urls contacts o written =>
    have fromContacts : ∀ m ∈ (readCommand F me contacts o (fetchedEntries n urls written)
        n.store).shown, FromContact F n contacts m :=
      fun m shown => shown_of_sound sound known shown
    refine ⟨fromContacts, fun row kept => ?_⟩
    rcases row_of_shown kept with old | ⟨m, shown, isRow⟩
    · exact .inl old
    · exact .inr ⟨m, fromContacts m shown, isRow⟩
  | encrypt | relay | fetch | other => trivial

end

/-- In every run in which the relays take in, for the reader and under a contact's null id,
only what that contact has made, every message a read shows comes from the contact it is
shown under. -/
theorem shown_from_contacts (pool : String → Bool) (store : Store) (acts : List Act)
    (names : Along (step F cfg me) (NamesMaker F cfg me (Listed acts)) (start pool store) acts) :
    Along (step F cfg me) (Attributed F me) (start pool store) acts := by
  have listed : Along (step F cfg me)
      (fun _ a => ∀ nid fp, a.contacts.lookup nid = some fp → Listed acts nid fp)
      (start pool store) acts :=
    (along_mem _ _).mpr fun a member nid fp found => ⟨a, member, found⟩
  exact along_of_invariant (Sound F cfg me (Listed acts))
    (fun n a sound meets => step_sound sound meets.1)
    (fun n a sound meets => attributed_of_sound sound meets.2)
    (start_sound pool store) (along_and names listed)

/-- Carol, with the null id that relays compute from her fingerprint. -/
def reader : Party greetings :=
  ⟨⟨"C", Signatures.computeNullId Signatures.sumScheme "C"⟩, carol.kyber⟩

/-- Alice's greeting under any null id, signed with her own key, which is 7. -/
def greetingAs (nid : String) : StoreRequest where
  recipientNid := reader.identity.nullId
  senderNid := nid
  senderFp := "A"
  signedBlob := compact (greeting 0)
  seq := 1
  senderSig := sumSignature 7
    ("|".intercalate [reader.identity.nullId, nid, "A", "1", "1000", "m"])
  timestamp := momentStamp
  nonce := "m"
  senderVerifyingKey := String.singleton (Char.ofUInt8 7)
  sealedSender := ""
  recipientTag := ""

def fetchDraws : FetchDraws where
  senderSig := sumSignature 9
    (":".intercalate ["relay-fetch", reader.identity.nullId, "1000", "n"])
  timestamp := momentStamp
  nonce := "n"
  requesterVerifyingKey := String.singleton (Char.ofUInt8 9)

/-- Carol fetches from the relay after Alice's greeting has come. -/
def delivery (nid : String) : List Act :=
  [.relay "ws://here" "A" (.message (.store (greetingAs nid)) moment),
    .fetch "ws://here" fetchDraws moment true]

/-- Carol reads, with one contact. -/
def readWith (nid fp : String) : Act :=
  .read ["ws://here"] ((∅ : ContactList).insert nid fp) plainly fun _ => .ok ()

def delivered (nid : String) : Network :=
  final (step greetings (fun _ => smallConfig none) reader) (start (fun _ => false) withAlice)
    (delivery nid)

/-- The null ids and texts of the messages that are shown, and who made them. -/
def shownTo (nid fp : String) : List (String × String × Option String) :=
  (step greetings (fun _ => smallConfig none) reader (delivered nid) (readWith nid fp)).1.map
    fun m => (m.entry.senderNid, m.text,
      (ciphertextOf greetings m.entry.signedBlob).bind (delivered nid).authors)

/-- Under her own null id the greeting is shown as hers. -/
theorem shown_from_alice :
    shownTo "na" "A" = [("na", "hi", some "A")] ∧
      Along (step greetings (fun _ => smallConfig none) reader)
        (Attributed greetings reader)
        (start (fun _ => false) withAlice) (delivery "na" ++ [readWith "na" "A"]) := by
  refine ⟨by decide +kernel, shown_from_contacts _ _ _ _ _ _ ⟨?_, trivial, trivial, trivial⟩⟩
  intro q c fp passed reaches isCiphertext contact
  obtain rfl := Option.some.inj (Option.filter_eq_some_iff.mp passed).1
  obtain ⟨a, member, found⟩ := contact
  have isRead : a = readWith "na" "A" := by
    rcases List.mem_cons.mp member with rfl | member
    · cases found
    · rcases List.mem_cons.mp member with rfl | member
      · cases found
      · exact List.mem_singleton.mp member
  subst isRead
  exact Option.some.inj found

/-- Under Bob's null id, with her own key and in her own session, it is shown as Bob's. -/
theorem shown_from_bob :
    shownTo "nb" "B" = [("nb", "hi", some "A")] ∧
      ¬ Along (step greetings (fun _ => smallConfig none) reader)
        (Attributed greetings reader)
        (start (fun _ => false) withAlice) (delivery "nb" ++ [readWith "nb" "B"]) := by
  have shown : shownTo "nb" "B" = [("nb", "hi", some "A")] := by decide +kernel
  refine ⟨shown, ?_⟩
  intro along
  have attributed := ((along_append _ _ _).mp along).2.1
  have member : ("nb", "hi", some "A") ∈ shownTo "nb" "B" := by
    rw [shown]
    exact List.mem_singleton_self _
  obtain ⟨m, inside, same⟩ := List.mem_map.mp member
  obtain ⟨fp, contact, made⟩ := attributed.shown m inside
  obtain ⟨nid, -, author⟩ : m.entry.senderNid = "nb" ∧ m.text = "hi" ∧
      (ciphertextOf greetings m.entry.signedBlob).bind (delivered "nb").authors = some "A" := by
    simpa only [Prod.mk.injEq] using same
  have isAlice : fp = "A" := Option.some.inj (made.symm.trans author)
  rw [nid, isAlice] at contact
  exact absurd contact (by decide)

end SenderAttribution
