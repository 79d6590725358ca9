import WorkQueue.Proofs.Text.Markup
import WorkQueue.Proofs.Text.Numeral
import WorkQueue.Proofs.Text.Split
import WorkQueue.Proofs.Verification.Handler
import WorkQueue.Proofs.Verification.Payload

/-!
# The links of a verification message

The body of a verification message is put together from the name that the user has chosen, the link,
and fixed text around them.  `CarriesLink` says what a reader finds in it: the link of the record is
the last one, its address is the base address with the record's id and secret, and every other link
stands in the name.  Whoever looks for the first address of a verification in the body finds that of
the record, unless the name holds one.

The name goes into the body as it is.  So the message has one link exactly for the names without a
link (`mail_carries_link`), and a user who registers with a link for a name adds it to the message
(`forged_link_mailed`), in front of the real one.
-/

namespace WorkQueue
namespace Verification

open Procedure Text

variable {baseUrl : String} {delivery : Delivery} {task : Task} {log : List Answered}
  {result : Except HandlerError Unit} {user : User} {record : VerifyEmail} {c : Char}

/-! ## The parts of the body -/

/-- What every address of a verification has between its path and its parameters. -/
def addressWord : List Char := "verify_email?".toList

/-- The parameters of an address. -/
def query (id : Int) (secretCode : String) : List Char :=
  ("id".toList ++ '=' :: (toString id).toList) ++ '&' ::
    ("secret_code".toList ++ '=' :: secretCode.toList)

/-- What stands in front of the name. -/
def greeting : List Char := "Hello ".toList

/-- What stands between the name and the tag of the link, less the comma behind the name. -/
def thanks : List Char := "<br/>Thank you for registering with us!<br/>Please ".toList

/-- What the tag of the link has in front of the address. -/
def anchorStart : List Char := "a href=\"".toList

/-- The tag of a link with an address. -/
def anchor (url : String) : List Char :=
  anchorStart ++ (url.toList ++ ['"'])

/-- What stands behind the tag of the link. -/
def closing : List Char := "click here</a> to verify your email address.<br/>".toList

lemma toList_parts (s₁ s₂ s₃ s₄ s₅ : String) :
    (s₁ ++ s₂ ++ s₃ ++ s₄ ++ s₅).toList =
      s₁.toList ++ (s₂.toList ++ (s₃.toList ++ (s₄.toList ++ s₅.toList))) := by
  simp only [String.toList_append, List.append_assoc]

lemma link_toList (baseUrl : String) (id : Int) (secretCode : String) :
    (link baseUrl id secretCode).toList =
      (dropTrailing '/' baseUrl).toList ++ '/' :: (addressWord ++ query id secretCode) :=
  toList_parts _ "/verify_email?id=" _ "&secret_code=" _

lemma anchor_append (url : String) (rest : List Char) :
    anchor url ++ rest = anchorStart ++ (url.toList ++ '"' :: rest) := by
  rw [anchor, List.append_assoc, List.append_assoc, List.singleton_append]

lemma beforeLink_toList :
    ",<br/>Thank you for registering with us!<br/>Please <a href=\"".toList =
      ',' :: (thanks ++ '<' :: anchorStart) := by
  decide +kernel

lemma behindLink_toList :
    "\">click here</a> to verify your email address.<br/>".toList = '"' :: '>' :: closing := by
  decide +kernel

lemma content_toList (fullName url : String) :
    (content fullName url).toList =
      greeting ++ (fullName.toList ++ ',' ::
        (thanks ++ '<' :: (anchor url ++ '>' :: closing))) := by
  have hparts := toList_parts "Hello " fullName
    ",<br/>Thank you for registering with us!<br/>Please <a href=\"" url
    "\">click here</a> to verify your email address.<br/>"
  rw [beforeLink_toList, behindLink_toList] at hparts
  refine hparts.trans ?_
  rw [anchor_append, List.cons_append, List.append_assoc, List.cons_append]
  rfl

/-- A number is written in digits, with a minus sign in front if it is negative. -/
lemma toList_toString (id : Int) :
    (toString id).toList =
      if id < 0 then '-' :: Nat.toDigits 10 id.natAbs else Nat.toDigits 10 id.natAbs := by
  cases id with
  | ofNat n =>
    have hnonneg : ¬ Int.ofNat n < 0 := Int.not_lt.mpr (Int.natCast_nonneg n)
    rw [if_neg hnonneg]
    exact Nat.toList_repr
  | negSucc n =>
    rw [if_pos (Int.negSucc_lt_zero n)]
    change ("-" ++ Nat.repr (n + 1)).toList = _
    rw [String.toList_append, Nat.toList_repr]
    rfl

lemma mem_toString {id : Int} (hc : c ∈ (toString id).toList) :
    c.isAlphanum = true ∨ c = '-' := by
  have hdigit : ∀ c ∈ Nat.toDigits 10 id.natAbs, c.isAlphanum = true := fun c hc => by
    rw [Char.isAlphanum, (isNumeral_toDigits id.natAbs).isDigit c hc, Bool.or_true]
  rw [toList_toString] at hc
  split at hc
  · exact (List.mem_cons.mp hc).symm.imp_left (hdigit c)
  · exact .inl (hdigit c hc)

/-! ## What is not in the parts -/

/-- The parameters of an address are made of letters, digits and four other characters. -/
lemma isAlphanum_of_mem_query {id : Int} {secretCode : String}
    (hsecret : ∀ c ∈ secretCode.toList, c.isAlphanum = true) (hc : c ∈ query id secretCode) :
    c.isAlphanum = true ∨ c ∈ ['_', '=', '&', '-'] := by
  rw [query, List.mem_append, List.mem_append, List.mem_cons, List.mem_cons,
    List.mem_append, List.mem_cons] at hc
  rcases hc with (hname | rfl | hdigit) | rfl | hname | rfl | hmem
  · exact .inl (List.all_eq_true.mp (by decide) c hname)
  · exact .inr (by decide)
  · exact (mem_toString hdigit).imp_right fun hminus : c = '-' => by
      rw [hminus]
      decide
  · exact .inr (by decide)
  · have hall : "secret_code".toList.all (fun c => c.isAlphanum || c == '_') = true := by decide
    rcases Bool.or_eq_true_iff.mp (List.all_eq_true.mp hall c hname) with halphanum | hscore
    · exact .inl halphanum
    · exact .inr (eq_of_beq hscore ▸ List.mem_cons_self)
  · exact .inr (by decide)
  · exact .inl (hsecret c hmem)

/-- What a base address has to be free of for the links below it: what ends an address or a tag, and
what the address of a verification is found by. -/
structure PlainBase (baseUrl : String) : Prop where
  quote : '"' ∉ baseUrl.toList
  opening : '<' ∉ baseUrl.toList
  closing : '>' ∉ baseUrl.toList
  word : ¬ addressWord <:+: baseUrl.toList

lemma begins_dropTrailing (c : Char) (s : String) : (dropTrailing c s).toList <+: s.toList := by
  obtain ⟨⟨count, hcount⟩, -⟩ := exists_dropTrailing c s
  exact ⟨_, hcount.symm⟩

/-- A character that is neither in the base address nor in the path or the query is not in the
address. -/
lemma notMem_link {id : Int} {secretCode : String} (hbase : c ∉ baseUrl.toList)
    (hsecret : ∀ c ∈ secretCode.toList, c.isAlphanum = true)
    (hc : c.isAlphanum = false) (hother : c ∉ ['/', '?', '_', '=', '&', '-']) :
    c ∉ (link baseUrl id secretCode).toList := by
  rw [link_toList, List.mem_append, List.mem_cons, List.mem_append]
  rintro (hmem | rfl | hmem | hmem)
  · exact hbase ((begins_dropTrailing '/' baseUrl).mem hmem)
  · exact hother (by decide)
  · have hall : addressWord.all (fun c => c.isAlphanum || c == '_' || c == '?') = true := by decide
    rcases Bool.or_eq_true_iff.mp (List.all_eq_true.mp hall c hmem) with h | hmark
    · rcases Bool.or_eq_true_iff.mp h with halphanum | hscore
      · exact ne_true_of_eq_false hc halphanum
      · obtain rfl := eq_of_beq hscore
        exact hother (by decide)
    · obtain rfl := eq_of_beq hmark
      exact hother (by decide)
  · exact (isAlphanum_of_mem_query hsecret hmem).elim (ne_true_of_eq_false hc) fun h =>
      hother (List.mem_cons_of_mem _ (List.mem_cons_of_mem _ h))

/-! ## Reading the body -/

/-- Reads a number whose digits stay below `bound`; a minus sign may stand in front of them. -/
def readInt (bound : Nat) : List Char → Except NumeralError Int
  | '-' :: c :: digits => (readDigits bound 0 (c :: digits)).map fun n => -(n : Int)
  | text => (readNat bound text).map Int.ofNat

/-- A number is read back. -/
lemma readInt_toString {bound : Nat} {id : Int} (hid : id.natAbs < bound) :
    readInt bound (toString id).toList = .ok id := by
  have hnumeral := isNumeral_toDigits id.natAbs
  rw [toList_toString]
  split
  · next hneg =>
    have hlt : Nat.ofDigitChars 10 (Nat.toDigits 10 id.natAbs) 0 < bound := by
      rw [hnumeral.value]
      exact hid
    have hread : readDigits bound 0 (Nat.toDigits 10 id.natAbs) = .ok id.natAbs := by
      rw [readDigits_eq hnumeral.isDigit hlt, hnumeral.value]
    have habs : -(id.natAbs : Int) = id := by omega
    cases hdigits : Nat.toDigits 10 id.natAbs with
    | nil => exact absurd hdigits Nat.toDigits_ne_nil
    | cons c digits =>
      rw [readInt, ← hdigits, hread]
      exact congrArg Except.ok habs
  · next hnonneg =>
    have habs : Int.ofNat id.natAbs = id := Int.natAbs_of_nonneg (Int.not_lt.mp hnonneg)
    rw [readInt, readNat_numeral hnumeral Nat.toDigits_ne_nil hid]
    · exact congrArg Except.ok habs
    · intro c digits hminus
      exact absurd (hnumeral.isDigit '-' (hminus ▸ List.mem_cons_self)) (by decide)

/-- The id and the secret among the parameters of an address. -/
def readQuery? (bound : Nat) (params : List Char) : Option (Int × String) := do
  let values := (pieces '&' params).filterMap (cut '=')
  let id ← values.lookup "id".toList
  let secretCode ← values.lookup "secret_code".toList
  return (← (readInt bound id).toOption, String.ofList secretCode)

/-- The id and the secret of the first address of a verification in a text: its parameters reach up
to the next quote. -/
def linkParams? (bound : Nat) (body : List Char) : Option (Int × String) :=
  (behind addressWord body).bind fun rest => readQuery? bound (rest.takeWhile (· ≠ '"'))

/-- The parameters of an address are read back. -/
lemma readQuery?_query {bound : Nat} {id : Int} {secretCode : String}
    (hsecret : ∀ c ∈ secretCode.toList, c.isAlphanum = true) (hid : id.natAbs < bound) :
    readQuery? bound (query id secretCode) = some (id, secretCode) := by
  have hparam : ∀ name value : List Char, '&' ∉ name → '&' ∉ value →
      '&' ∉ name ++ '=' :: value := by
    intro name value hname hvalue
    rw [List.mem_append, List.mem_cons]
    rintro (hmem | hmem | hmem)
    · exact hname hmem
    · exact absurd hmem (by decide)
    · exact hvalue hmem
  have hfirst := hparam "id".toList (toString id).toList (by decide) fun hmem =>
    absurd (mem_toString hmem) (by decide)
  have hsecond := hparam "secret_code".toList secretCode.toList (by decide) fun hmem =>
    absurd (hsecret _ hmem) (by decide)
  have hvalues : (pieces '&' (query id secretCode)).filterMap (cut '=') =
      [("id".toList, (toString id).toList), ("secret_code".toList, secretCode.toList)] := by
    rw [query, pieces_append hfirst, pieces_of_notMem hsecond, List.filterMap_cons_some
      (cut_append (by decide) _), List.filterMap_cons_some (cut_append (by decide) _)]
    rfl
  have hlookup : readQuery? bound (query id secretCode) =
      (readInt bound (toString id).toList).toOption.bind fun n =>
        some (n, String.ofList secretCode.toList) := by
    rw [readQuery?, hvalues]
    rfl
  rw [hlookup, readInt_toString hid, String.ofList_toList]
  rfl

/-- A quote ends the parameters of the first address. -/
lemma linkParams?_of_behind {bound : Nat} {id : Int} {secretCode : String} {body rest : List Char}
    (hsecret : ∀ c ∈ secretCode.toList, c.isAlphanum = true) (hid : id.natAbs < bound)
    (h : behind addressWord body = some (query id secretCode ++ '"' :: rest)) :
    linkParams? bound body = some (id, secretCode) := by
  have hquote : '"' ∉ query id secretCode := fun hmem =>
    absurd (isAlphanum_of_mem_query hsecret hmem) (by decide)
  rw [linkParams?, h, Option.bind_some, takeWhile_append_cons hquote, readQuery?_query hsecret hid]

lemma tags_thanks (rest : List Char) :
    tags (thanks ++ rest) = "br/".toList :: "br/".toList :: tags rest := rfl

lemma tags_closing : tags closing = ["/a".toList, "br/".toList] := rfl

/-- The tags of a body that has none in the name. -/
def plainTags (url : String) : List (List Char) :=
  ["br/".toList, "br/".toList, anchor url, "/a".toList, "br/".toList]

lemma notMem_anchor {url : String} (hurl : c ∉ url.toList) (hstart : c ∉ anchorStart)
    (hquote : c ≠ '"') : c ∉ anchor url := by
  rw [anchor, List.mem_append, List.mem_append, List.mem_singleton]
  exact not_or.mpr ⟨hstart, not_or.mpr ⟨hurl, hquote⟩⟩

lemma tags_tail {url : String} (hopen : '<' ∉ url.toList) (hclose : '>' ∉ url.toList) :
    tags (thanks ++ '<' :: (anchor url ++ '>' :: closing)) = plainTags url := by
  rw [tags_thanks, tags_tag (notMem_anchor hopen (by decide) (by decide))
    (notMem_anchor hclose (by decide) (by decide)), tags_closing, plainTags]

lemma links_tail {url : String} (hopen : '<' ∉ url.toList) (hclose : '>' ∉ url.toList) :
    links (thanks ++ '<' :: (anchor url ++ '>' :: closing)) = [anchor url] := by
  rw [links, tags_tail hopen hclose]
  rfl

lemma href?_anchor {url : String} (hquote : '"' ∉ url.toList) :
    href? (anchor url) = some url.toList := by
  have hbehind : behind "href=\"".toList
      (['a', ' '] ++ ("href=\"".toList ++ (url.toList ++ ['"']))) =
        some (url.toList ++ ['"']) := by
    rw [behind_append_of_notMem (c := 'h') (by decide) (by decide), behind_word (by decide)]
  exact (congrArg (Option.map _) hbehind).trans (congrArg some (takeWhile_append_cons hquote []))

/-- The address is where the address word is first found, if the name does not have it. -/
lemma behind_content {fullName : String} {id : Int} {secretCode : String}
    (hbase : ¬ addressWord <:+: baseUrl.toList) (hname : ¬ addressWord <:+: fullName.toList) :
    behind addressWord (content fullName (link baseUrl id secretCode)).toList =
      some (query id secretCode ++ '"' :: '>' :: closing) := by
  have hsite : ¬ addressWord <:+: (dropTrailing '/' baseUrl).toList := fun h =>
    hbase (h.trans (begins_dropTrailing '/' baseUrl).isInfix)
  have hv : addressWord.head? = some 'v' := rfl
  rw [content_toList, behind_append_of_notMem hv (by decide), behind_append hname (by decide),
    behind_append_of_notMem hv (by decide), anchor_append,
    ← List.cons_append, behind_append_of_notMem hv (by decide), link_toList, List.append_assoc,
    List.cons_append, behind_append hsite (by decide), List.append_assoc, behind_word (by decide)]

/-! ## What a reader finds -/

/-- What a reader finds in the body of a message to a user about a record. -/
structure CarriesLink (baseUrl : String) (user : User) (record : VerifyEmail) (body : String) :
    Prop where
  /-- The address of the record is the base address, less the slashes at its end, with the path and
  the parameters. -/
  address : ∃ site : String,
    (∃ count, baseUrl.toList = site.toList ++ List.replicate count '/') ∧
      site.toList.getLast? ≠ some '/' ∧
      link baseUrl record.id record.secretCode =
        site ++ "/verify_email?id=" ++ toString record.id ++ "&secret_code=" ++ record.secretCode
  /-- This is what the link of the record leads to. -/
  href : href? (anchor (link baseUrl record.id record.secretCode)) =
    some (link baseUrl record.id record.secretCode).toList
  /-- It is the last link, and there are as many others as in the name of the user. -/
  last : ∃ others, links body.toList =
      others ++ [anchor (link baseUrl record.id record.secretCode)] ∧
    others.length = (links user.fullName.toList).length
  /-- It is the only link exactly if the name has none. -/
  alone_iff : links body.toList = [anchor (link baseUrl record.id record.secretCode)] ↔
    links user.fullName.toList = []
  /-- A name without tags adds no tag of any kind. -/
  tags : '<' ∉ user.fullName.toList →
    tags body.toList = plainTags (link baseUrl record.id record.secretCode)
  /-- The first address of a verification has the id and the secret of the record, if there is none
  in the name. -/
  params : ¬ addressWord <:+: user.fullName.toList → ∀ bound, record.id.natAbs < bound →
    linkParams? bound body.toList = some (record.id, record.secretCode)

/-- What a reader finds in the body that the handler puts together. -/
lemma carriesLink (hbase : PlainBase baseUrl) (user : User) (record : VerifyEmail)
    (hsecret : ∀ c ∈ record.secretCode.toList, c.isAlphanum = true) :
    CarriesLink baseUrl user record
      (content user.fullName (link baseUrl record.id record.secretCode)) := by
  have hopen : '<' ∉ (link baseUrl record.id record.secretCode).toList :=
    notMem_link hbase.opening hsecret (by decide) (by decide)
  have hclose : '>' ∉ (link baseUrl record.id record.secretCode).toList :=
    notMem_link hbase.closing hsecret (by decide) (by decide)
  have hquote : '"' ∉ (link baseUrl record.id record.secretCode).toList :=
    notMem_link hbase.quote hsecret (by decide) (by decide)
  obtain ⟨hcount, hlast⟩ := exists_dropTrailing '/' baseUrl
  have hcomma : ',' ∉ linkStart := by decide
  obtain ⟨others, hlinks, hlength⟩ := links_append hcomma user.fullName.toList
    (thanks ++ '<' :: (anchor (link baseUrl record.id record.secretCode) ++ '>' :: closing))
  have hbody : links (content user.fullName (link baseUrl record.id record.secretCode)).toList =
      others ++ [anchor (link baseUrl record.id record.secretCode)] := by
    rw [content_toList, links_append_of_notMem (by decide), hlinks, links_tail hopen hclose]
  exact {
    address := ⟨_, hcount, hlast, rfl⟩
    href := href?_anchor hquote
    last := ⟨others, hbody, hlength⟩
    alone_iff := by
      rw [hbody, List.append_left_eq_self, ← List.length_eq_zero_iff, hlength,
        List.length_eq_zero_iff]
    tags := fun hname => by
      rw [content_toList, tags_append (by decide), tags_append hname]
      exact tags_tail hopen hclose
    params := fun hname bound hid =>
      linkParams?_of_behind hsecret hid (behind_content hbase.word hname) }

/-- A log shows one record at most, made for one user. -/
lemma Made.unique {user' : User} {record' : VerifyEmail} (h : Made task log user record)
    (h' : Made task log user' record') : user = user' ∧ record = record' := by
  obtain ⟨_, _, -, hlookUps, hrecordings⟩ := h
  obtain ⟨_, _, -, hlookUps', hrecordings'⟩ := h'
  have huser := (List.cons.inj (hlookUps.symm.trans hlookUps')).1
  have hrecord := (List.cons.inj (hrecordings.symm.trans hrecordings')).1
  exact ⟨Except.ok.inj (Prod.mk.inj huser).2, Except.ok.inj (Prod.mk.inj hrecord).2⟩

/-- **The message carries the link of the record.**  If the handler of verification tasks has made a
record for a user, with a secret of letters and digits, then all that it hands to the mailer has the
link of the record for its last link, and as many other links as the name of the user.  It is the
only link if the name has none, and the first address of a verification if the name has none. -/
theorem mail_carries_link (hbase : PlainBase baseUrl)
    (hends : Ends (handler baseUrl delivery task) log result) (hmade : Made task log user record)
    (hsecret : ∀ c ∈ record.secretCode.toList, c.isAlphanum = true) :
    ∀ email answer, (email, answer) ∈ sendings log →
      CarriesLink baseUrl user record email.content := by
  intro email answer hsending
  obtain ⟨_, _, hmade', rfl⟩ := (attempt_of_ends hends).faithful hsending
  obtain ⟨rfl, rfl⟩ := hmade.unique hmade'
  exact carriesLink hbase user record hsecret

/-- A verification task for an account. -/
def taskFor (user : User) : Task :=
  Task.create "t1" taskKind (Payload.encode ⟨user.username⟩) 5 .epoch

/-- What an attempt asks and is told that mails the link of a record. -/
def mailedLog (baseUrl : String) (user : User) (record : VerifyEmail) : List Answered :=
  opening user.username user record.secretCode (.ok record)
    [⟨.cancelled, false⟩, ⟨.send (message baseUrl user record), .ok ()⟩]

lemma ends_mailedLog (baseUrl : String) (user : User) (record : VerifyEmail) :
    Ends (handler baseUrl (.ofTask (taskFor user)) (taskFor user)) (mailedLog baseUrl user record)
      (.ok ()) :=
  (@Attempt.mailed baseUrl (taskFor user) ⟨user.username⟩ user record.secretCode record
    (Payload.decode_encode _)).ends _

lemma made_mailedLog (baseUrl : String) (user : User) (record : VerifyEmail) :
    Made (taskFor user) (mailedLog baseUrl user record) user record :=
  ⟨⟨user.username⟩, record.secretCode, Payload.decode_encode _, rfl, rfl⟩

/-- A user with a plain name. -/
def plainUser : User := ⟨"alice", "Alice Liddell", "alice@example.com", false, .epoch⟩

/-- The first record of this user. -/
def firstRecord : VerifyEmail :=
  ⟨1, "alice", "alice@example.com", "abcdefghijklmnopqrstuvwxyz012345", false, .epoch,
    .ofMillis Store.standardLifetime⟩

theorem plain_mail_carries_link :
    PlainBase "http://bank.test/" ∧
      (∀ c ∈ firstRecord.secretCode.toList, c.isAlphanum = true) ∧
      CarriesLink "http://bank.test/" plainUser firstRecord
        (message "http://bank.test/" plainUser firstRecord).content := by
  have hbase : PlainBase "http://bank.test/" := ⟨by decide, by decide, by decide, by decide⟩
  have hsecret : ∀ c ∈ firstRecord.secretCode.toList, c.isAlphanum = true :=
    List.all_eq_true.mp (by decide)
  exact ⟨hbase, hsecret, mail_carries_link hbase (ends_mailedLog _ plainUser firstRecord)
    (made_mailedLog _ plainUser firstRecord) hsecret _ (.ok ()) List.mem_cons_self⟩

/-- A link in place of a name. -/
def forgedName : String :=
  "<a href=\"http://localhost/verify_email?id=7&secret_code=x\">Alice</a>"

/-- A user with such a name. -/
def forgedUser : User := { plainUser with fullName := forgedName }

/-- The store takes a user with a link for a name, and the message to this user has that link in
front of the one of the record: whoever looks for the address finds the wrong id and secret. -/
theorem forged_link_mailed :
    ((Store.empty Store.standardLifetime).createUser
        ⟨"alice", forgedName, "alice@example.com"⟩ .epoch).map (·.1) = .ok forgedUser ∧
      PlainBase "http://bank.test/" ∧
      Ends (handler "http://bank.test/" (.ofTask (taskFor forgedUser)) (taskFor forgedUser))
        (mailedLog "http://bank.test/" forgedUser firstRecord) (.ok ()) ∧
      sendings (mailedLog "http://bank.test/" forgedUser firstRecord) =
        [(message "http://bank.test/" forgedUser firstRecord, .ok ())] ∧
      links (message "http://bank.test/" forgedUser firstRecord).content.toList =
        [anchor "http://localhost/verify_email?id=7&secret_code=x",
          anchor (link "http://bank.test/" 1 firstRecord.secretCode)] ∧
      linkParams? bound64 (message "http://bank.test/" forgedUser firstRecord).content.toList =
        some (7, "x") :=
  ⟨rfl, ⟨by decide, by decide, by decide, by decide⟩, ends_mailedLog _ _ _, rfl,
    (congrArg links (content_toList _ _)).trans (by decide +kernel),
    (congrArg (linkParams? bound64) (content_toList _ _)).trans (by decide +kernel)⟩

end Verification
end WorkQueue
