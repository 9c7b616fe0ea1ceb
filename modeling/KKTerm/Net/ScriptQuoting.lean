import KKTerm.Net.ProfileScript

/-!
# Values in the elevated script are data

PowerShell ends a single-quoted literal at any of five quote characters, of
which the script doubles one. What follows is read as code.
-/

namespace Net

open Fallible IpText QuotedScript List Runs

/-- The quote characters of the language, besides its strings with escapes. -/
def powerShell : Alphabet Char where
  quote := fun c => c = '\'' || c = '\u2018' || c = '\u2019' || c = '\u201a' || c = '\u201b'
  string := fun c => c = '"'
  escape := fun c => c.toNat = 0x60

lemma putIn_eq_render : putIn = Piece.render isApostrophe := by
  funext s
  cases s <;> rfl

/-- The template leads from one place of the lexer to another. -/
def Leads (p : Place) (template : Template) (p' : Place) : Prop :=
  run (Place.next powerShell) p template = some p'

/-- A complete statement, between whose code values stand in literals. -/
abbrev Statement (template : Template) : Prop :=
  Leads .code template .code

section Places

variable {p p₁ p' : Place} {front back : Template}

lemma Leads.append (first : Leads p front p₁) (second : Leads p₁ back p') :
    Leads p (front ++ back) p' :=
  run_append_eq_some.mpr ⟨p₁, first, second⟩

lemma leads_nil : Leads p [] p :=
  rfl

lemma text_ofList (l : List Char) : text (String.ofList l) = l.map .char := by
  rw [text, String.toList_ofList]

lemma leads_text {l : List Char} (h : Leads p (l.map .char) p') :
    Leads p (text (String.ofList l)) p' := by
  rw [text_ofList]
  exact h

lemma leads_quoted (value : List Char) : Leads .literal (quoted value) .literal :=
  rfl

lemma leads_number (n : Nat) : Leads .literal (number n) .literal := by
  have digits : ∀ c ∈ Nat.toDigits 10 n, c.isDigit = true := fun c => Text.isDigit_of_mem_toDigits
  rw [number]
  generalize Nat.toDigits 10 n = cs at digits ⊢
  induction cs with
  | nil => rfl
  | cons c cs ih =>
    have digit := digits c mem_cons_self
    have plain : powerShell.quote c = false := by
      rw [Bool.eq_false_iff]
      intro quote
      simp only [powerShell, Bool.or_eq_true, decide_eq_true_iff] at quote
      rcases quote with (((rfl | rfl) | rfl) | rfl) | rfl <;> cases digit
    have stays : Place.next powerShell .literal (.char c : Piece Char (List Char)) =
        some .literal := by
      simp [Place.next, plain]
    exact run_cons_eq_some.mpr
      ⟨.literal, stays, ih (fun d member => digits d (mem_cons_of_mem c member))⟩

end Places

def Alike (t t' : Template) : Prop :=
  t.map Piece.blank = t'.map Piece.blank

lemma Alike.append {front front' back back' : Template} (first : Alike front front')
    (second : Alike back back') : Alike (front ++ back) (front' ++ back') := by
  unfold Alike at *
  rw [map_append, map_append, first, second]

lemma alike_quoted (value value' : List Char) : Alike (quoted value) (quoted value') :=
  rfl

lemma alike_refl (t : Template) : Alike t t :=
  rfl

lemma Leads.of_alike {p p' : Place} {t t' : Template} (alike : Alike t t')
    (leads : Leads p t p') : Leads p t' p' := by
  have blank : ∀ (p : Place) (s : Piece Char (List Char)),
      p.next powerShell s = p.next powerShell s.blank := by
    intro p s
    cases s <;> cases p <;> rfl
  have same : ∀ (t : Template) (p : Place), run (Place.next powerShell) p t =
      run (Place.next powerShell) p (t.map Piece.blank) := by
    intro t
    induction t with
    | nil =>
      intro p
      rfl
    | cons s t ih =>
      intro p
      simp only [run, map_cons, foldlM_cons, blank]
      exact congrArg _ (funext ih)
  rw [Leads, same, ← alike, ← same]
  exact leads

lemma alike_intercalate {sep : Template} {ts ts' : List Template}
    (h : Forall₂ Alike ts ts') : Alike (sep.intercalate ts) (sep.intercalate ts') := by
  induction h with
  | nil => exact alike_refl _
  | @cons t t' ts ts' first rest ih =>
    cases rest with
    | nil => simpa using first
    | cons second rest =>
      rw [intercalate_cons_cons, intercalate_cons_cons]
      exact (first.append (alike_refl sep)).append ih

lemma statement_intercalate {ts : List Template} (h : ∀ t ∈ ts, Statement t) :
    Statement ((text ";\n").intercalate ts) := by
  have separator : Statement (text ";\n") := leads_text rfl
  induction ts with
  | nil => exact leads_nil
  | cons t ts ih =>
    have first := h t mem_cons_self
    have later := ih (fun t' member => h t' (mem_cons_of_mem t member))
    cases ts with
    | nil => simpa using first
    | cons t' ts =>
      rw [intercalate_cons_cons]
      exact (first.append separator).append later

section Statements

set_option maxRecDepth 8000

variable (adapterId : List Char) (ipv6 : Bool) (family : NetworkFamilySnapshot)
  (request : ApplyNetworkProfileRequest)

variable (adapterId' : List Char) (index : Nat) (gateway : List Char) (dhcp : Bool)
  (servers : List (List Char)) (server : List Char) {address address' : NetworkProfileAddress}

lemma alike_lookup :
    Alike (windowsLookupStatement adapterId) (windowsLookupStatement adapterId') := by
  simp [Alike, windowsLookupStatement, quoted, Piece.blank]

lemma statement_lookup : Statement (windowsLookupStatement adapterId) := by
  have empty : Statement (windowsLookupStatement []) := by
    simp only [windowsLookupStatement]
    repeat rw [text_ofList]
    rfl
  exact empty.of_alike (alike_lookup [] adapterId)

lemma alike_refresh :
    Alike (windowsRefreshStatement adapterId) (windowsRefreshStatement adapterId') := by
  simp [Alike, windowsRefreshStatement, quoted, Piece.blank]

lemma statement_refresh : Statement (windowsRefreshStatement adapterId) := by
  have empty : Statement (windowsRefreshStatement []) := by
    simp only [windowsRefreshStatement]
    repeat rw [text_ofList]
    rfl
  exact empty.of_alike (alike_refresh [] adapterId)

lemma statement_binding : Statement (windowsBindingStatement ipv6 family) := by
  have byMode : ∀ mode, Statement
      (windowsBindingStatement ipv6 { mode, addresses := [], gateway := none }) := by
    intro mode
    cases ipv6 <;> cases mode
    all_goals
      simp only [windowsBindingStatement, familyName, reduceIte, reduceCtorEq, Bool.false_eq_true]
      repeat rw [text_ofList]
      rfl
  exact byMode family.mode

lemma alike_address {gateway gateway' : Option (List Char)} {index : Nat}
    (h : address.prefixLength = address'.prefixLength) :
    Alike (windowsAddressStatement gateway index address)
      (windowsAddressStatement gateway' index address') := by
  by_cases first : index = 0 <;>
    simp [Alike, windowsAddressStatement, quoted, Piece.blank, first, h]

lemma statement_address (gateway : Option (List Char)) (index : Nat)
    (address : NetworkProfileAddress) :
    Statement (windowsAddressStatement gateway index address) := by
  have opened : Leads .code (text "$step='IPv4 static address ") .literal := leads_text rfl
  have call : Leads .literal (text "'; Invoke-KKNetsh @('interface','ipv4','") .literal :=
    leads_text rfl
  have action : Leads .literal (text (if index = 0 then "set" else "add")) .literal := by
    split_ifs
    · exact leads_text rfl
    · exact leads_text rfl
  have adapter : Leads .literal (text "','address',\"name=$($a.ifIndex)\",") .code := leads_text rfl
  have source : Leads .code (text "'source=static','gateway=") .literal := leads_text rfl
  have sourceEnd : Leads .literal (text "',") .code := leads_text rfl
  have options : Leads .code (if index = 0 then
        text "'source=static','gateway=" ++ quoted (gateway.getD "none".toList) ++ text "',"
      else []) .code := by
    split_ifs
    · exact (source.append (leads_quoted _)).append sourceEnd
    · exact leads_nil
  have value : Leads .code (text "'address=") .literal := leads_text rfl
  have slash : Leads .literal (text "/") .literal := leads_text rfl
  have closed : Leads .literal (text "','store=persistent')") .code := leads_text rfl
  exact (((((((((opened.append (leads_number _)).append call).append action).append adapter).append
    options).append value).append (leads_quoted _)).append slash).append (leads_number _)).append
    closed

lemma statement_ipv4 : ∀ t ∈ windowsIpv4Statements family, Statement t := by
  intro t member
  unfold windowsIpv4Statements at member
  split at member
  next => cases member
  next =>
    rw [mem_singleton] at member
    subst member
    repeat rw [text_ofList]
    rfl
  next =>
    obtain ⟨index, bound, rfl⟩ := mem_mapIdx.mp member
    exact statement_address _ index _

lemma alike_ipv6Address {index : Nat} (h : address.prefixLength = address'.prefixLength) :
    Alike (windowsIpv6AddressStatement index address)
      (windowsIpv6AddressStatement index address') := by
  simp [Alike, windowsIpv6AddressStatement, quoted, Piece.blank, h]

lemma statement_ipv6Address (address : NetworkProfileAddress) :
    Statement (windowsIpv6AddressStatement index address) := by
  have opened : Leads .code (text "$step='IPv6 static address ") .literal := leads_text rfl
  have call : Leads .literal
      (text "'; Invoke-KKNetsh @('interface','ipv6','add','address',") .code :=
    leads_text rfl
  have value : Leads .code (text "\"interface=$($a.ifIndex)\",'address=") .literal := leads_text rfl
  have slash : Leads .literal (text "/") .literal := leads_text rfl
  have closed : Leads .literal (text "','store=persistent')") .code := leads_text rfl
  exact ((((((opened.append (leads_number _)).append call).append value).append
    (leads_quoted _)).append slash).append (leads_number _)).append closed

lemma alike_ipv6Gateway (gateway' : List Char) :
    Alike (windowsIpv6GatewayStatement gateway) (windowsIpv6GatewayStatement gateway') := by
  simp [Alike, windowsIpv6GatewayStatement, quoted, Piece.blank]

lemma statement_ipv6Gateway : Statement (windowsIpv6GatewayStatement gateway) := by
  have empty : Statement (windowsIpv6GatewayStatement []) := by
    simp only [windowsIpv6GatewayStatement]
    repeat rw [text_ofList]
    rfl
  exact empty.of_alike (alike_ipv6Gateway [] gateway)

lemma statement_cleanup (automatic : Bool) {store : String}
    (h : store = "PersistentStore" ∨ store = "ActiveStore") :
    ∀ t ∈ windowsCleanupStatements automatic store, Statement t := by
  intro t member
  simp only [windowsCleanupStatements, mem_cons, not_mem_nil, or_false] at member
  rcases h with rfl | rfl <;> rcases member with rfl | rfl <;> cases automatic
  all_goals
    simp only [reduceIte, Bool.false_eq_true]
    repeat rw [text_ofList]
    rfl

lemma statement_configure {automatic : String} (h : automatic = "enabled" ∨ automatic = "disabled") :
    Statement (windowsConfigureStatement automatic) := by
  rcases h with rfl | rfl
  all_goals
    simp only [windowsConfigureStatement]
    repeat rw [text_ofList]
    rfl

lemma statement_ipv6 : ∀ t ∈ windowsIpv6Statements family, Statement t := by
  intro t member
  unfold windowsIpv6Statements at member
  split at member
  next => cases member
  next =>
    simp only [mem_append, mem_singleton] at member
    rcases member with (persistent | active) | rfl
    · exact statement_cleanup true (.inl rfl) t persistent
    · exact statement_cleanup true (.inr rfl) t active
    · exact statement_configure (.inl rfl)
  next =>
    simp only [mem_cons, mem_append] at member
    rcases member with rfl | ((persistent | active) | address) | gateway
    · exact statement_configure (.inr rfl)
    · exact statement_cleanup false (.inl rfl) t persistent
    · exact statement_cleanup false (.inr rfl) t active
    · obtain ⟨index, bound, rfl⟩ := mem_mapIdx.mp address
      exact statement_ipv6Address index _
    · obtain ⟨value, -, rfl⟩ := mem_map.mp gateway
      exact statement_ipv6Gateway value

lemma statement_family : ∀ t ∈ windowsFamilyStatements ipv6 family, Statement t := by
  cases ipv6
  · exact statement_ipv4 family
  · exact statement_ipv6 family

lemma alike_dnsSet (servers' : List (List Char)) :
    Alike (windowsDnsSetStatement ipv6 dhcp servers)
      (windowsDnsSetStatement ipv6 dhcp servers') := by
  cases dhcp <;> simp [Alike, windowsDnsSetStatement, quoted, Piece.blank]

lemma statement_dnsSet : Statement (windowsDnsSetStatement ipv6 dhcp servers) := by
  have empty : Statement (windowsDnsSetStatement ipv6 dhcp []) := by
    cases ipv6 <;> cases dhcp
    all_goals
      simp only [windowsDnsSetStatement, dnsFamilyName, reduceIte, Bool.false_eq_true]
      repeat rw [text_ofList]
      rfl
  exact empty.of_alike (alike_dnsSet ipv6 dhcp [] servers)

lemma alike_dnsAdd (server' : List Char) :
    Alike (windowsDnsAddStatement ipv6 index server)
      (windowsDnsAddStatement ipv6 index server') := by
  simp [Alike, windowsDnsAddStatement, quoted, Piece.blank]

lemma statement_dnsAdd : Statement (windowsDnsAddStatement ipv6 index server) := by
  have call : Leads .code (text "Invoke-KKNetsh @('interface','") .literal := leads_text rfl
  have name : Leads .literal (text (dnsFamilyName ipv6)) .literal := by
    cases ipv6
    · exact leads_text rfl
    · exact leads_text rfl
  have value : Leads .literal
      (text "','add','dnsservers',\"name=$($a.ifIndex)\",'address=") .literal :=
    leads_text rfl
  have position : Leads .literal (text "','index=") .literal := leads_text rfl
  have closed : Leads .literal (text "','validate=no')") .code := leads_text rfl
  exact (((((call.append name).append value).append (leads_quoted _)).append position).append
    (leads_number _)).append closed

lemma statement_dnsFamily (ipv6 : Bool) (family : NetworkFamilySnapshot) :
    ∀ t ∈ windowsDnsFamilyStatements request ipv6 family, Statement t := by
  intro t member
  unfold windowsDnsFamilyStatements at member
  split_ifs at member
  · cases member
  · rcases mem_cons.mp member with rfl | added
    · exact statement_dnsSet ipv6 _ _
    · obtain ⟨index, bound, rfl⟩ := mem_mapIdx.mp (mem_of_mem_drop added)
      exact statement_dnsAdd ipv6 index _

lemma statement_all : ∀ t ∈ windowsStatements request, Statement t := by
  intro t member
  simp only [windowsStatements, windowsDnsStatements, mem_cons, mem_append] at member
  rcases member with rfl | rfl | rfl | rfl | (ipv4 | ipv6) | dnsIpv4 | dnsIpv6
  · exact statement_lookup _
  · exact statement_binding _ _
  · exact statement_binding _ _
  · exact statement_refresh _
  · exact statement_family false _ t ipv4
  · exact statement_family true _ t ipv6
  · exact statement_dnsFamily request false _ t dnsIpv4
  · exact statement_dnsFamily request true _ t dnsIpv6

lemma statement_template (reportPath : List Char) :
    Statement (windowsApplyTemplate request reportPath) := by
  have head : Leads .code scriptHead .literal := by
    simp only [scriptHead]
    repeat rw [text_ofList]
    rfl
  have opened : Leads .literal scriptOpened .code := by
    simp only [scriptOpened]
    repeat rw [text_ofList]
    rfl
  have tail : Statement scriptTail := by
    simp only [scriptTail]
    repeat rw [text_ofList]
    rfl
  exact (((head.append (leads_quoted reportPath)).append opened).append
    (statement_intercalate (statement_all request))).append tail

end Statements

def typographicQuotes : List Char :=
  ['\u2018', '\u2019', '\u201a', '\u201b']

variable {c : Char} {value : List Char}

lemma quote_iff : powerShell.quote c = true ↔ isApostrophe c = true ∨ c ∈ typographicQuotes := by
  simp only [powerShell, isApostrophe, typographicQuotes, Bool.or_eq_true, decide_eq_true_iff,
    mem_cons, not_mem_nil, or_false, or_assoc]

lemma not_typographic_of_isApostrophe (h : isApostrophe c = true) : c ∉ typographicQuotes := by
  rw [isApostrophe, decide_eq_true_iff] at h
  subst h
  decide

/-- `ps_quote` doubles the apostrophe only. -/
lemma clean_iff : Clean powerShell isApostrophe value ↔ ∀ c ∈ value, c ∉ typographicQuotes := by
  constructor
  · intro clean c member listed
    exact not_typographic_of_isApostrophe (clean c member (quote_iff.mpr (.inr listed))) listed
  · intro plain c member quote
    exact (quote_iff.mp quote).resolve_right (plain c member)

lemma clean_address {address : IpAddr} (h : parseIpAddr value = some address) :
    Clean powerShell isApostrophe value := by
  rw [clean_iff]
  intro c member listed
  have taken := all_eq_true.mp (isAddressChar_of_parseIpAddr h) c member
  have plain : typographicQuotes.all (fun c => !isAddressChar c) := by decide
  have other := all_eq_true.mp plain c listed
  rw [taken] at other
  cases other

lemma holes_append (front back : Template) : holes (front ++ back) = holes front ++ holes back :=
  filterMap_append

lemma holes_chars (cs : List Char) : holes (cs.map .char : Template) = [] := by
  induction cs with
  | nil => rfl
  | cons c cs ih => exact ih

lemma holes_text (fixed : String) : holes (text fixed) = [] :=
  holes_chars fixed.toList

lemma holes_number (n : Nat) : holes (number n) = [] :=
  holes_chars (Nat.toDigits 10 n)

lemma holes_quoted (value : List Char) : holes (quoted value) = [value] :=
  rfl

lemma mem_holes_intercalate {fixed : String} {ts : List Template} :
    value ∈ holes ((text fixed).intercalate ts) ↔ ∃ t ∈ ts, value ∈ holes t := by
  induction ts with
  | nil => simp [holes]
  | cons t ts ih =>
    cases ts with
    | nil => simp
    | cons t' ts =>
      rw [intercalate_cons_cons, holes_append, holes_append, holes_text, append_nil, mem_append, ih]
      simp

attribute [local simp] holes_append holes_text holes_number holes_quoted

lemma clean_none : Clean powerShell isApostrophe "none".toList := by
  rw [clean_iff]
  intro c member listed
  have plain : "none".toList.all (fun c => !typographicQuotes.contains c) := by rfl
  have other := all_eq_true.mp plain c member
  rw [contains_iff_mem.mpr listed] at other
  cases other

/-- What a family of a valid request puts into the script. -/
def ValidFamily (family : NetworkFamilySnapshot) : Prop :=
  (∀ entry ∈ family.addresses, ∃ address, parseIpAddr entry.address = some address) ∧
    ∀ gateway ∈ family.gateway, ∃ address, parseIpAddr gateway = some address

lemma validFamily_of_validate {family : NetworkFamilySnapshot} {ipv6 : Bool}
    (h : validateFamily family ipv6 = .ok ()) : ValidFamily family := by
  obtain ⟨-, h⟩ := reject_bind_ok.mp h
  obtain ⟨-, h⟩ := reject_bind_ok.mp h
  obtain ⟨⟨⟩, entries, gateway⟩ := bind_eq_ok.mp h
  constructor
  · intro entry member
    obtain ⟨address, read, -⟩ := bind_eq_ok.mp (forM_eq_ok.mp entries entry member)
    exact ⟨address, require_eq_ok.mp read⟩
  · intro value present
    rw [Option.mem_def.mp present] at gateway
    obtain ⟨address, read, -⟩ := bind_eq_ok.mp gateway
    exact ⟨address, require_eq_ok.mp read⟩

lemma validateRequest_parts {request : ApplyNetworkProfileRequest}
    (h : validateRequest request = .ok ()) :
    ValidFamily request.ipv4 ∧ ValidFamily request.ipv6 ∧
      ∀ dns ∈ request.dnsServers, ∃ address, parseIpAddr dns = some address := by
  obtain ⟨⟨⟩, -, h⟩ := bind_eq_ok.mp h
  obtain ⟨⟨⟩, -, h⟩ := bind_eq_ok.mp h
  obtain ⟨⟨⟩, ipv4, h⟩ := bind_eq_ok.mp h
  obtain ⟨⟨⟩, ipv6, h⟩ := bind_eq_ok.mp h
  obtain ⟨-, servers⟩ := reject_bind_ok.mp h
  refine ⟨validFamily_of_validate ipv4, validFamily_of_validate ipv6, ?_⟩
  intro dns member
  obtain ⟨address, read, -⟩ := bind_eq_ok.mp (forM_eq_ok.mp servers dns member)
  exact ⟨address, require_eq_ok.mp read⟩

section Values

variable {value : List Char} {t : Template}

variable {family : NetworkFamilySnapshot}

section
variable (valid : ValidFamily family)
include valid

lemma ValidFamily.clean_gateway :
    Clean powerShell isApostrophe (family.gateway.getD "none".toList) := by
  cases present : family.gateway with
  | none => exact clean_none
  | some gateway =>
    obtain ⟨address, read⟩ := valid.2 gateway present
    exact clean_address read

lemma ValidFamily.clean_entry {entry : NetworkProfileAddress}
    (member : entry ∈ family.addresses) : Clean powerShell isApostrophe entry.address := by
  obtain ⟨address, read⟩ := valid.1 entry member
  exact clean_address read

lemma holes_ipv4 (member : t ∈ windowsIpv4Statements family)
    (inside : value ∈ holes t) : Clean powerShell isApostrophe value := by
  unfold windowsIpv4Statements at member
  split at member
  next => cases member
  next =>
    rw [mem_singleton] at member
    subst member
    simp at inside
  next =>
    obtain ⟨index, bound, rfl⟩ := mem_mapIdx.mp member
    have entry := valid.clean_entry (getElem_mem bound)
    by_cases first : index = 0
    · simp only [windowsAddressStatement, first, if_true] at inside
      simp at inside
      rcases inside with rfl | rfl
      · exact valid.clean_gateway
      · simpa [first] using entry
    · simp [windowsAddressStatement, first] at inside
      subst inside
      exact entry

lemma holes_ipv6 (member : t ∈ windowsIpv6Statements family)
    (inside : value ∈ holes t) : Clean powerShell isApostrophe value := by
  have cleanup : ∀ automatic store, t ∉ windowsCleanupStatements automatic store := by
    intro automatic store found
    simp only [windowsCleanupStatements, mem_cons, not_mem_nil, or_false] at found
    rcases found with rfl | rfl <;> simp at inside
  have configure : ∀ automatic, t ≠ windowsConfigureStatement automatic := by
    rintro automatic rfl
    simp [windowsConfigureStatement] at inside
  unfold windowsIpv6Statements at member
  split at member
  next => cases member
  next => simp [cleanup, configure] at member
  next =>
    simp only [mem_cons, mem_append, cleanup, configure, false_or, or_false] at member
    rcases member with address | gateway
    · obtain ⟨index, bound, rfl⟩ := mem_mapIdx.mp address
      simp [windowsIpv6AddressStatement] at inside
      subst inside
      exact valid.clean_entry (getElem_mem bound)
    · obtain ⟨gateway, present, rfl⟩ := mem_map.mp gateway
      simp [windowsIpv6GatewayStatement] at inside
      subst inside
      obtain ⟨address, read⟩ := valid.2 value (Option.mem_toList.mp present)
      exact clean_address read

end

lemma mem_freshServers {ipv6 : Bool} {seen : List IpAddr} {servers : List (List Char)}
    (member : value ∈ freshServers ipv6 seen servers) :
    ∃ address, parseIpAddr value = some address := by
  induction servers generalizing seen with
  | nil => cases member
  | cons server servers ih =>
    rw [freshServers] at member
    split at member
    next => exact ih member
    next address read =>
      split_ifs at member
      · rcases mem_cons.mp member with rfl | later
        · exact ⟨address, read⟩
        · exact ih later
      · exact ih member

lemma holes_dnsFamily {request : ApplyNetworkProfileRequest} {ipv6 : Bool}
    (member : t ∈ windowsDnsFamilyStatements request ipv6 family) (inside : value ∈ holes t) :
    Clean powerShell isApostrophe value := by
  have fresh : ∀ server ∈ freshServers ipv6 [] request.dnsServers,
      Clean powerShell isApostrophe server := by
    intro server listed
    obtain ⟨address, read⟩ := mem_freshServers listed
    exact clean_address read
  unfold windowsDnsFamilyStatements at member
  split_ifs at member
  · cases member
  · rcases mem_cons.mp member with rfl | added
    · unfold windowsDnsSetStatement at inside
      split_ifs at inside
      all_goals simp at inside
      subst inside
      cases servers : freshServers ipv6 [] request.dnsServers with
      | nil => exact clean_none
      | cons server rest =>
        rw [servers] at fresh
        exact fresh server mem_cons_self
    · obtain ⟨index, bound, rfl⟩ := mem_mapIdx.mp (mem_of_mem_drop added)
      simp [windowsDnsAddStatement] at inside
      subst inside
      exact fresh _ (getElem_mem bound)

end Values

/-- All values of a valid request are clean but for the adapter and the path. -/
lemma clean_holes_iff {request : ApplyNetworkProfileRequest} {reportPath : List Char}
    (accepted : validateRequest request = .ok ()) :
    (∀ value ∈ holes (windowsApplyTemplate request reportPath),
        Clean powerShell isApostrophe value) ↔
      Clean powerShell isApostrophe request.adapterId ∧ Clean powerShell isApostrophe reportPath := by
  obtain ⟨ipv4, ipv6, -⟩ := validateRequest_parts accepted
  have fixed : holes scriptHead = [] ∧ holes scriptOpened = [] ∧ holes scriptTail = [] := by
    simp [scriptHead, scriptOpened, scriptTail]
  simp only [windowsApplyTemplate, holes_append, holes_quoted, fixed.1, fixed.2.1, fixed.2.2,
    nil_append, append_nil, cons_append, mem_cons, mem_holes_intercalate]
  constructor
  · intro clean
    refine ⟨clean _ (.inr ⟨_, mem_cons_self, ?_⟩), clean _ (.inl rfl)⟩
    simp [windowsLookupStatement]
  · rintro ⟨adapter, path⟩ value (rfl | ⟨t, member, inside⟩)
    · exact path
    · simp only [windowsStatements, windowsDnsStatements, mem_cons, mem_append] at member
      rcases member with rfl | rfl | rfl | rfl | (family | family) | dns | dns
      · simp [windowsLookupStatement] at inside
        rwa [inside]
      · simp [windowsBindingStatement] at inside
      · simp [windowsBindingStatement] at inside
      · simp [windowsRefreshStatement] at inside
        rwa [inside]
      · exact holes_ipv4 ipv4 family inside
      · exact holes_ipv6 ipv6 family inside
      · exact holes_dnsFamily dns inside
      · exact holes_dnsFamily dns inside

end Net
