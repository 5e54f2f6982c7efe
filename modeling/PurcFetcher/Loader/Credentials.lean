import PurcFetcher.Loader.Redirects

/-!
# Credentials along a chain of redirects

With credentials for the same origin only, the policy is computed again for each request
from the flag and the origin.  A request is issued with credentials only if its URL can be
requested by the origin that the load was made for, and if the flag is still set.  URLs
without an origin of their own do not clear the flag.
-/

namespace PurcFetcher.Loader

open Http Machine

namespace Load

open NetworkLoadChecker

variable {platform : Platform} {load next : Load} {action : LoadAction}

/-- The request with the index was issued with credentials only if its URL can be requested
by the origin, and so can the URLs before it, unless they have no origin of their own. -/
def CredentialsStay (platform : Platform) (origin : SecurityOrigin) (issued : List Issued) :
    Prop :=
  ∀ index entry, issued[index]? = some entry → entry.policy = .use →
    origin.canRequest platform entry.url = true ∧
      ∀ earlier ∈ issued.take index,
        origin.canRequest platform earlier.url = true ∨ earlier.url.protocolIsData = true ∨
          earlier.url.protocolIsBlob = true

variable {origin : SecurityOrigin}

/-- The URL may be requested with credentials after the requests that were issued. -/
def MayUse (platform : Platform) (origin : SecurityOrigin) (issued : List Issued) (url : URL) :
    Prop :=
  origin.canRequest platform url = true ∧
    ∀ other ∈ issued.map Issued.url, isSameOrigin platform other (some origin) = true

theorem CredentialsStay.append {issued : List Issued} {entry : Issued}
    (hstay : CredentialsStay platform origin issued)
    (hentry : entry.policy = .use → MayUse platform origin issued entry.url) :
    CredentialsStay platform origin (issued ++ [entry]) := by
  intro idx other hother hpol
  rcases Nat.lt_or_ge idx issued.length with hidx | hidx
  · rw [List.getElem?_append_left hidx] at hother
    rw [List.take_append_of_le_length hidx.le]
    exact hstay idx other hother hpol
  · rw [List.getElem?_append_right hidx, List.getElem?_singleton] at hother
    obtain ⟨hlast, heq⟩ := Option.ite_none_right_eq_some.1 hother
    cases heq
    have hlen : idx = issued.length := by omega
    obtain ⟨hreq, hbefore⟩ := hentry hpol
    refine ⟨hreq, fun earlier hearlier => ?_⟩
    rw [hlen, List.take_left] at hearlier
    have hsame := hbefore _ (List.mem_map_of_mem hearlier)
    rwa [isSameOrigin, Bool.or_eq_true, Bool.or_eq_true, or_comm] at hsame

structure CredentialsInv (platform : Platform) (origin : SecurityOrigin) (load : Load) :
    Prop where
  credentials : load.checker.options.credentials = .sameOrigin
  flag : FlagInv platform (some origin) load
  /-- The policy of a request that waits for its preflight. -/
  pending : ∀ url request, load.pending = some (url, request) →
    load.checker.storedCredentialsPolicy = .use → MayUse platform origin load.issued url
  issued : CredentialsStay platform origin load.issued

/-- A check chooses credentials only for a URL that may be requested with them. -/
theorem CredentialsInv.of_check (hinv : CredentialsInv platform origin load)
    {base after : NetworkLoadChecker} {request : ResourceRequest} {canSkipPreflight : Bool}
    {out : Outcome} (hidle : load.pending = none) (hbase : Follows load.checker base)
    (hcheck : base.continueCheckingRequest platform request canSkipPreflight =
      some (after, out)) :
    after.options.credentials = .sameOrigin ∧ out ≠ .handOver ∧
      (after.storedCredentialsPolicy = .use →
        MayUse platform origin load.issued request.url) := by
  obtain ⟨classified, hclassify, hchecks⟩ := checks_continueCheckingRequest hcheck
  have hcreds : base.options.credentials = .sameOrigin := by rw [hbase.options, hinv.credentials]
  obtain ⟨chosen, hchosen, rfl⟩ := Option.map_eq_some_iff.1 hclassify
  refine ⟨by rw [hchecks.follows.options, hcreds], hchecks.passes, fun hpol => ?_⟩
  rw [hchecks.follows.policy] at hpol
  obtain rfl : chosen = .use := hpol
  rw [NetworkLoadChecker.credentialsFor, if_pos hcreds] at hchosen
  split at hchosen
  · next hset =>
    obtain ⟨hset, horigin⟩ := hbase.flag hset
    obtain ⟨hsource, hchain⟩ := hinv.flag hset
    rw [horigin, hsource] at hchosen
    rw [chain, hidle, Option.toList_none, List.map_nil, List.append_nil] at hchain
    refine ⟨?_, hchain⟩
    by_contra hrequest
    rw [Option.map_some, if_neg hrequest] at hchosen
    exact absurd hchosen (by decide)
  · exact absurd hchosen (by decide)

theorem CredentialsInv.step (hinv : CredentialsInv platform origin load)
    (hstep : load.step platform action = some next) :
    CredentialsInv platform origin next := by
  have hflag := hinv.flag.step hstep
  cases moves_of_step hstep with
  | @checked request base after out verdicts _ hrequest hidle hbase hjudged hcheck =>
    obtain ⟨hoptions, hpasses, hnew⟩ := hinv.of_check hidle hbase hcheck
    cases out with
    | issue => exact ⟨hoptions, hflag, fun _ _ => nofun, hinv.issued.append hnew⟩
    | preflight =>
      refine ⟨hoptions, hflag, ?_, hinv.issued⟩
      rintro url request ⟨⟩
      exact hnew
    | refuse => exact ⟨hoptions, hflag, fun _ _ => nofun, hinv.issued⟩
    | handOver => exact absurd rfl hpasses
  | stayed hafter hpend =>
    refine { credentials := by rw [hafter.options, hinv.credentials], flag := hflag,
             pending := ?_, issued := hinv.issued }
    intro url request hwaiting hpol
    rw [hafter.policy] at hpol
    rcases hpend with rfl | rfl
    · exact hinv.pending url request hwaiting hpol
    · exact absurd hwaiting (Option.some_ne_none _).symm
  | sent hpend =>
    exact ⟨hinv.credentials, hflag, fun _ _ => nofun,
      hinv.issued.append (hinv.pending _ _ hpend)⟩

/-- Credentials do not follow a redirect off the origin. -/
theorem credentials_stay_on_origin {options : FetchOptions}
    (hcredentials : options.credentials = .sameOrigin) (headers : HTTPHeaderMap)
    (url nullURL : URL) (preflightPolicy : PreflightPolicy)
    (schemeRegistry : Option NetworkSchemeRegistry) (checkDisabled : Bool)
    {actions : List LoadAction}
    (hrun : run (step platform)
      (start (NetworkLoadChecker.create platform options headers url nullURL (some origin)
        preflightPolicy schemeRegistry checkDisabled)) actions = some load) :
    CredentialsStay platform origin load.issued := by
  have hstart : CredentialsInv platform origin
      (start (NetworkLoadChecker.create platform options headers url nullURL (some origin)
        preflightPolicy schemeRegistry checkDisabled)) :=
    { credentials := hcredentials
      flag := flagInv_start rfl
      pending := nofun
      issued := nofun }
  exact (run_of_step (fun hinv _ => hinv.step) hstart (meets_true _ actions) hrun).issued

/-- A redirect to a URL without an origin of its own and back to the origin. -/
def throughData : List LoadAction :=
  [.check (Sample.requestTo Sample.site) false,
   .redirect (Sample.requestTo Sample.site) (Sample.requestTo Sample.data)
     (Sample.responseFrom Sample.site .default) false,
   .redirect (Sample.requestTo Sample.data) (Sample.requestTo Sample.site)
     (Sample.responseFrom Sample.data .default) false]

theorem credentials_stay_on_origin_redirected :
    ∃ load, run (step Sample.platform) (Sample.load .cors none) throughData = some load ∧
      load.issued.length = 3 ∧ CredentialsStay Sample.platform Sample.origin load.issued := by
  have hrun := @run_eq_after _ _ (step Sample.platform) (Sample.load .cors none) throughData
    (by decide +kernel)
  exact ⟨_, hrun, by decide +kernel, credentials_stay_on_origin rfl _ _ _ _ _ _ hrun⟩

/-- The last request is issued with credentials, though the URL before it cannot be requested
by the origin. -/
theorem credentials_return_after_data_url :
    ∃ load, run (step Sample.platform) (Sample.load .cors none) throughData = some load ∧
      load.issued.map Issued.policy = [.use, .doNotUse, .use] ∧
      load.issued.map (fun entry => Sample.origin.canRequest Sample.platform entry.url) =
        [true, false, true] :=
  ⟨_, run_eq_after (by decide +kernel), by decide +kernel, by decide +kernel⟩

end Load

end PurcFetcher.Loader
