import KKTerm.Net.ScriptQuoting

/-!
# What the elevated shell reads

Two valid requests of the same shape give scripts that differ only inside the
literals of their values. The script is read in that way exactly when neither
the adapter nor the report path holds a typographic quote.
-/

namespace Net

open IpText QuotedScript List

/-- Of every DNS server, its family and whether it was named before. -/
def dnsShape : List (Option IpAddr) → List (List Char) → List (Option Bool × Bool)
  | _, [] => []
  | seen, value :: rest =>
    ((parseIpAddr value).map IpAddr.isIpv6, decide (parseIpAddr value ∈ seen)) ::
      dnsShape (parseIpAddr value :: seen) rest

/-- Requests that differ in addresses, in the adapter and in the gateways' text only.
The optional IPv6 gateway counts as a list of at most one. -/
structure SameShape (request request' : ApplyNetworkProfileRequest) : Prop where
  ipv4Mode : request.ipv4.mode = request'.ipv4.mode
  ipv6Mode : request.ipv6.mode = request'.ipv6.mode
  ipv4Prefixes : request.ipv4.addresses.map NetworkProfileAddress.prefixLength =
    request'.ipv4.addresses.map NetworkProfileAddress.prefixLength
  ipv6Prefixes : request.ipv6.addresses.map NetworkProfileAddress.prefixLength =
    request'.ipv6.addresses.map NetworkProfileAddress.prefixLength
  ipv6Gateway : request.ipv6.gateway.toList.length = request'.ipv6.gateway.toList.length
  dns : dnsShape [] request.dnsServers = dnsShape [] request'.dnsServers

lemma dnsShape_length (seen : List (Option IpAddr)) (servers : List (List Char)) :
    (dnsShape seen servers).length = servers.length := by
  induction servers generalizing seen with
  | nil => rfl
  | cons server servers ih => simp [dnsShape, ih]

/-- The shape tells how many servers of a family there are. -/
lemma length_freshServers {ipv6 : Bool} {seen : List IpAddr} {seen' : List (Option IpAddr)}
    (same : ∀ address, address.isIpv6 = ipv6 → (address ∈ seen ↔ some address ∈ seen'))
    (servers : List (List Char)) :
    (freshServers ipv6 seen servers).length =
      ((dnsShape seen' servers).filter (fun e => e.1 = some ipv6 && !e.2)).length := by
  induction servers generalizing seen seen' with
  | nil => rfl
  | cons server servers ih =>
    rw [freshServers, dnsShape]
    cases read : parseIpAddr server with
    | none =>
      have agrees : ∀ other, other.isIpv6 = ipv6 → (other ∈ seen ↔ some other ∈ none :: seen') := by
        simpa using same
      simpa using ih agrees
    | some address =>
      by_cases family : address.isIpv6 = ipv6
      · by_cases old : address ∈ seen
        · have old' : some address ∈ seen' := (same address family).mp old
          have agrees : ∀ other, other.isIpv6 = ipv6 →
              (other ∈ seen ↔ some other ∈ some address :: seen') := by
            intro other otherFamily
            rw [same other otherFamily, mem_cons, Option.some.injEq]
            constructor
            · exact .inr
            · rintro (rfl | listed)
              · exact old'
              · exact listed
          simpa [family, old, old'] using ih agrees
        · have new' : some address ∉ seen' := fun listed => old ((same address family).mpr listed)
          have agrees : ∀ other, other.isIpv6 = ipv6 →
              (other ∈ address :: seen ↔ some other ∈ some address :: seen') := by
            intro other otherFamily
            rw [mem_cons, mem_cons, Option.some.injEq, same other otherFamily]
          simpa [family, old, new'] using ih agrees
      · have agrees : ∀ other, other.isIpv6 = ipv6 →
            (other ∈ seen ↔ some other ∈ some address :: seen') := by
          intro other otherFamily
          have different : other ≠ address := fun h => family (h ▸ otherFamily)
          rw [same other otherFamily, mem_cons, Option.some.injEq]
          constructor
          · exact .inr
          · rintro (equal | listed)
            · exact absurd equal different
            · exact listed
        simpa [family] using ih agrees

section Shape

variable {α β : Type}

variable {xs ys : List α}

lemma forall₂_mapIdx {R : α → α → Prop} {S : β → β → Prop} {f g : Nat → α → β}
    (related : ∀ index x y, R x y → S (f index x) (g index y)) (h : Forall₂ R xs ys) :
    Forall₂ S (xs.mapIdx f) (ys.mapIdx g) := by
  induction h generalizing f g with
  | nil => exact .nil
  | @cons x y xs ys first rest ih =>
    rw [mapIdx_cons, mapIdx_cons]
    exact .cons (related 0 x y first) (ih (fun index => related (index + 1)))

lemma forall₂_of_map_eq {f : α → β} (h : xs.map f = ys.map f) :
    Forall₂ (fun x y => f x = f y) xs ys := by
  have equal : Forall₂ Eq (xs.map f) (ys.map f) := by
    rw [h]
    exact forall₂_refl _
  rwa [forall₂_map_left_iff, forall₂_map_right_iff] at equal

lemma forall₂_of_length_eq (h : xs.length = ys.length) :
    Forall₂ (fun _ _ => True) xs ys := by
  refine forall₂_iff_get.mpr ⟨h, ?_⟩
  intros
  trivial

lemma forall₂_alike_refl (ts : List Template) : Forall₂ Alike ts ts := by
  induction ts with
  | nil => exact .nil
  | cons t ts ih => exact .cons (alike_refl t) ih

end Shape

variable {family family' : NetworkFamilySnapshot} {request request' : ApplyNetworkProfileRequest}

lemma alike_ipv4 (mode : family.mode = family'.mode)
    (prefixes : family.addresses.map NetworkProfileAddress.prefixLength =
      family'.addresses.map NetworkProfileAddress.prefixLength) :
    Forall₂ Alike (windowsIpv4Statements family) (windowsIpv4Statements family') := by
  unfold windowsIpv4Statements
  rw [← mode]
  cases family.mode with
  | disabled => exact .nil
  | automatic =>
    dsimp only
    exact forall₂_alike_refl _
  | manual =>
    dsimp only
    refine forall₂_mapIdx ?_ (forall₂_of_map_eq prefixes)
    intro index address address' same
    exact alike_address same

lemma alike_ipv6 (mode : family.mode = family'.mode)
    (prefixes : family.addresses.map NetworkProfileAddress.prefixLength =
      family'.addresses.map NetworkProfileAddress.prefixLength)
    (gateway : family.gateway.toList.length = family'.gateway.toList.length) :
    Forall₂ Alike (windowsIpv6Statements family) (windowsIpv6Statements family') := by
  unfold windowsIpv6Statements
  rw [← mode]
  cases family.mode with
  | disabled => exact .nil
  | automatic =>
    dsimp only
    exact forall₂_alike_refl _
  | manual =>
    dsimp only
    have addresses : Forall₂ Alike (family.addresses.mapIdx windowsIpv6AddressStatement)
        (family'.addresses.mapIdx windowsIpv6AddressStatement) := by
      refine forall₂_mapIdx ?_ (forall₂_of_map_eq prefixes)
      intro index address address' same
      exact alike_ipv6Address same
    have gateways : Forall₂ Alike (family.gateway.toList.map windowsIpv6GatewayStatement)
        (family'.gateway.toList.map windowsIpv6GatewayStatement) := by
      rw [forall₂_map_left_iff, forall₂_map_right_iff]
      exact (forall₂_of_length_eq gateway).imp (fun _ _ _ => alike_ipv6Gateway _ _)
    refine .cons (alike_refl _) ?_
    exact rel_append (rel_append (forall₂_alike_refl _) addresses) gateways

lemma alike_dnsFamily (ipv6 : Bool) (mode : family.mode = family'.mode)
    (dns : dnsShape [] request.dnsServers = dnsShape [] request'.dnsServers) :
    Forall₂ Alike (windowsDnsFamilyStatements request ipv6 family)
      (windowsDnsFamilyStatements request' ipv6 family') := by
  have sameLength : request.dnsServers.length = request'.dnsServers.length := by
    rw [← dnsShape_length [], dns, dnsShape_length]
  have empty : request.dnsServers.isEmpty = request'.dnsServers.isEmpty := by
    rw [Bool.eq_iff_iff, isEmpty_iff_length_eq_zero, isEmpty_iff_length_eq_zero, sameLength]
  have servers : (freshServers ipv6 [] request.dnsServers).length =
      (freshServers ipv6 [] request'.dnsServers).length := by
    have none : ∀ address : IpAddr, address.isIpv6 = ipv6 →
        (address ∈ ([] : List IpAddr) ↔ some address ∈ ([] : List (Option IpAddr))) := by simp
    rw [length_freshServers none, length_freshServers none, dns]
  unfold windowsDnsFamilyStatements
  rw [← mode, ← empty]
  split_ifs
  · exact .nil
  · refine .cons (alike_dnsSet ipv6 _ _ _) (forall₂_drop 1 ?_)
    exact forall₂_mapIdx (fun index _ _ _ => alike_dnsAdd ipv6 index _ _)
      (forall₂_of_length_eq servers)

lemma alike_template (shape : SameShape request request') (reportPath reportPath' : List Char) :
    Alike (windowsApplyTemplate request reportPath) (windowsApplyTemplate request' reportPath') := by
  have binding : ∀ ipv6 (family family' : NetworkFamilySnapshot), family.mode = family'.mode →
      Alike (windowsBindingStatement ipv6 family) (windowsBindingStatement ipv6 family') := by
    intro ipv6 family family' mode
    rw [windowsBindingStatement, mode]
    exact alike_refl _
  have statements : Forall₂ Alike (windowsStatements request) (windowsStatements request') := by
    refine .cons (alike_lookup _ _) (.cons (binding false _ _ shape.ipv4Mode)
      (.cons (binding true _ _ shape.ipv6Mode) (.cons (alike_refresh _ _) ?_)))
    refine rel_append (rel_append ?_ ?_) (rel_append ?_ ?_)
    · exact alike_ipv4 shape.ipv4Mode shape.ipv4Prefixes
    · exact alike_ipv6 shape.ipv6Mode shape.ipv6Prefixes shape.ipv6Gateway
    · exact alike_dnsFamily false shape.ipv4Mode shape.dns
    · exact alike_dnsFamily true shape.ipv6Mode shape.dns
  have body : Alike ((text ";\n").intercalate (windowsStatements request))
      ((text ";\n").intercalate (windowsStatements request')) := alike_intercalate statements
  exact ((((alike_refl scriptHead).append (alike_quoted _ _)).append
    (alike_refl scriptOpened)).append body).append (alike_refl scriptTail)

/-- How the template is read when a value is part of its literal whatever it holds. -/
def intendedTokens (request : ApplyNetworkProfileRequest) (reportPath : List Char) :
    Option (List (Token (Piece Char (List Char)))) :=
  powerShell.template.lex (windowsApplyTemplate request reportPath)

/-- The tokens with the values taken out of their literals. -/
def outsideTokens (request : ApplyNetworkProfileRequest) (reportPath : List Char) :
    Option (List (Token (Piece Char Unit))) :=
  (intendedTokens request reportPath).map (List.map (Token.map Piece.blank))

/-- Every literal of the script holds exactly the value put into it, and the other
tokens are those of every request of this shape. -/
structure ReceivesValuesAsData (request : ApplyNetworkProfileRequest) (reportPath : List Char) :
    Prop where
  literals : ∃ tokens, intendedTokens request reportPath = some tokens ∧
    (∀ t ∈ tokens, t.Sound) ∧
    powerShell.lex (windowsApplyScript request reportPath) = some (tokens.map Token.fill)
  outside : ∀ request' reportPath', validateRequest request' = .ok () →
    SameShape request request' →
    outsideTokens request' reportPath' = outsideTokens request reportPath

lemma intendedTokens_sound (request : ApplyNetworkProfileRequest) (reportPath : List Char) :
    ∃ tokens, intendedTokens request reportPath = some tokens ∧ ∀ t ∈ tokens, t.Sound :=
  lex_of_place (statement_template request reportPath)

lemma outsideTokens_congr (shape : SameShape request request')
    (reportPath reportPath' : List Char) :
    outsideTokens request' reportPath' = outsideTokens request reportPath := by
  have alike := alike_template shape reportPath reportPath'
  rw [outsideTokens, intendedTokens, ← lex_blank, ← alike, lex_blank]
  rfl

/-- A valid request's script is read as intended exactly when the adapter and the
path are clean. -/
lemma receives_iff_clean {reportPath : List Char} (accepted : validateRequest request = .ok ()) :
    ReceivesValuesAsData request reportPath ↔
      Clean powerShell isApostrophe request.adapterId ∧ Clean powerShell isApostrophe reportPath := by
  obtain ⟨tokens, intended, sound⟩ := intendedTokens_sound request reportPath
  have doubled : ∀ c, isApostrophe c = true → powerShell.quote c = true :=
    fun c apostrophe => quote_iff.mpr (.inl apostrophe)
  have read := lex_render_iff doubled intended sound
  rw [← putIn_eq_render, clean_holes_iff accepted] at read
  rw [← read]
  constructor
  · intro h
    obtain ⟨tokens', intended', -, lexed⟩ := h.literals
    rw [intended] at intended'
    cases intended'
    exact lexed
  · intro lexed
    exact ⟨⟨tokens, intended, sound, lexed⟩, fun request' reportPath' _ shape =>
      outsideTokens_congr shape reportPath reportPath'⟩

/-- Values reach the elevated shell as data exactly when neither the adapter nor the
report path holds a typographic quote. -/
theorem script_values_are_data {request : ApplyNetworkProfileRequest} {reportPath : List Char}
    (accepted : validateRequest request = .ok ()) :
    ReceivesValuesAsData request reportPath ↔
      ∀ c ∈ request.adapterId ++ reportPath, c ∉ typographicQuotes := by
  rw [receives_iff_clean accepted, clean_iff, clean_iff]
  constructor
  · rintro ⟨adapter, path⟩ c member
    rcases mem_append.mp member with inAdapter | inPath
    · exact adapter c inAdapter
    · exact path c inPath
  · intro plain
    exact ⟨fun c member => plain c (mem_append_left _ member),
      fun c member => plain c (mem_append_right _ member)⟩

/-- A request for one address with the given adapter. -/
def sampleRequest (adapterId : String) : ApplyNetworkProfileRequest :=
  { adapterId := adapterId.toList, serviceId := none
    ipv4 :=
      { mode := .manual, addresses := [{ address := "10.0.0.2".toList, prefixLength := 24 }],
        gateway := some "10.0.0.1".toList }
    ipv6 := { mode := .disabled, addresses := [], gateway := none }
    dnsServers := ["10.0.0.1".toList, "fe80::1".toList] }

theorem plain_adapter_is_data :
    ReceivesValuesAsData (sampleRequest "O'Neill") "C:\\Temp\\report".toList := by
  refine (script_values_are_data (by decide +kernel)).mpr ?_
  intro c member listed
  have plain : ((sampleRequest "O'Neill").adapterId ++ "C:\\Temp\\report".toList).all
      (fun c => !typographicQuotes.contains c) := by decide +kernel
  have other := all_eq_true.mp plain c member
  rw [contains_iff_mem.mpr listed] at other
  cases other

/-- After the typographic quote the rest of the adapter is code. -/
theorem typographic_adapter_is_code :
    ∃ request reportPath, validateRequest request = .ok () ∧
      ¬ ReceivesValuesAsData request reportPath := by
  have accepted : validateRequest (sampleRequest "x\u2019\x7d; Stop-Computer; \x7b\u2018") = .ok () := by
    decide +kernel
  refine ⟨_, "C:\\Temp\\report".toList, accepted, ?_⟩
  rw [receives_iff_clean accepted, clean_iff]
  intro clean
  exact clean.1 '\u2019' (by decide +kernel) (by decide)

end Net
