import Mathlib.Tactic.Common
/-!
# The rights of a back-office role

`admin/access_module.py`: the entries of the menus and of the lists of operations, each
with its url, and the tables of each role. `model/agentModel.py` turns the tables of a
role into the urls an agent may open, and into those the form about him may take away.
-/

namespace FishWeb.Admin

/-! ## Entries -/

inductive Method where
  | GET | POST
  deriving Repr, DecidableEq

/-- The `tree` and the `method` of an entry: one name without a method, or two with one. -/
inductive Tree where
  | name (a : String)
  | path (method : Method) (a b : String)
  deriving Repr, DecidableEq

structure AccessObj where
  tree : Tree
  field : String
  check : Bool
  deriving Repr, DecidableEq

def BACK_PRE : String := "/admin"

def AccessObj.url (o : AccessObj) : String :=
  match o.tree with
  | .name a => BACK_PRE ++ "/" ++ a
  | .path _ a b => BACK_PRE ++ "/" ++ a ++ "/" ++ b

/-- `len(accessObj.tree)`: the names of a path, or the letters of the one name. -/
def Tree.len : Tree → Nat
  | .name a => a.length
  | .path _ _ _ => 2

def urls (l : List AccessObj) : List String := l.map AccessObj.url

/-- The tables of `access_module.py`. -/
structure AccessModule where
  menuModules : List AccessObj
  fishMenuModules : List AccessObj
  accessSadminModules : List AccessObj
  accessCompanyModules : List AccessObj
  accessAgOneClassModules : List AccessObj
  accessAgTwoClassModules : List AccessObj
  accessSadminList : List AccessObj
  accessCompanyList : List AccessObj
  accessAgOneClassList : List AccessObj
  accessAgTwoClassList : List AccessObj

namespace AccessModule

variable (T : AccessModule)

/-- `TYPE2ACCESS` -/
def type2access (agentType : String) : Option (List AccessObj) :=
  match agentType with
  | "0" => some T.accessSadminModules
  | "1" => some T.accessCompanyModules
  | "2" => some T.accessAgOneClassModules
  | "3" => some T.accessAgTwoClassModules
  | _ => none

/-- `TYPE2ACCESSLIST` -/
def type2accessList (agentType : String) : Option (List AccessObj) :=
  match agentType with
  | "0" => some T.accessSadminList
  | "1" => some T.accessCompanyList
  | "2" => some T.accessAgOneClassList
  | "3" => some T.accessAgTwoClassList
  | _ => none

/-! ## The urls of a role -/

/-- The entries of a list of operations that are in no menu. -/
def lists (access list : List AccessObj) : List AccessObj :=
  list.filter fun o => o.url ∉ urls access ∧ o.url ∉ urls T.menuModules

/-- What `getNewAccess` and `setAgentAccess` give: the menu of the role, and its list without menus. -/
def access (agentType : String) : Option (List AccessObj) :=
  match T.type2access agentType, T.type2accessList agentType with
  | some access, some list => some (access ++ T.lists access list)
  | _, _ => none

/-- The loop of `getAgentNewListAccessUrl`: `sd` says whether the entries belong to a menu of the role. -/
def newList (access : List AccessObj) : Bool → List AccessObj → List String
  | _, [] => []
  | sd, o :: l =>
    if o.url ∈ urls T.menuModules then newList access (decide (o.url ∈ urls access)) l
    else if sd then o.url :: newList access sd l
    else newList access sd l

/-- `getAgentNewListAccessUrl`: the urls that the form about an agent lists. -/
def getAgentNewListAccessUrl (agentType : String) : Option (List String) :=
  match T.type2access agentType, T.type2accessList agentType with
  | some access, some list => some (T.newList access true list)
  | _, _ => none

variable {T}

theorem access_role {agentType : String} {menu : List AccessObj} (h : T.access agentType = some menu) :
    agentType ∈ ["0", "1", "2", "3"] := by
  unfold access type2access at h
  split at h
  · next hmodules _ =>
    split at hmodules
    · simp
    · simp
    · simp
    · simp
    · cases hmodules
  · cases h

theorem mem_newList {access l : List AccessObj} {sd : Bool} {u : String} (h : u ∈ T.newList access sd l) :
    u ∈ urls l ∧ u ∉ urls T.menuModules := by
  induction l generalizing sd with
  | nil => cases h
  | cons o l ih =>
    rw [newList] at h
    have hrest {sd : Bool} (h : u ∈ T.newList access sd l) : u ∈ urls (o :: l) ∧ u ∉ urls T.menuModules :=
      (ih h).imp_left (List.mem_cons_of_mem _)
    split at h
    · exact hrest h
    · rename_i hmenu
      split at h
      · rcases List.mem_cons.1 h with rfl | h
        · exact ⟨List.mem_cons_self, hmenu⟩
        · exact hrest h
      · exact hrest h

/-- The two tables of a role are there or both are not. -/
theorem form_of_access {agentType : String} {menu : List AccessObj} (h : T.access agentType = some menu) :
    ∃ form, T.getAgentNewListAccessUrl agentType = some form := by
  unfold access at h
  unfold getAgentNewListAccessUrl
  cases hmodules : T.type2access agentType with
  | none => simp [hmodules] at h
  | some modules =>
    cases hlist : T.type2accessList agentType with
    | none => simp [hmodules, hlist] at h
    | some list => exact ⟨_, rfl⟩

/-- What the form lists is among what the role may open. -/
theorem newList_subset {agentType : String} {form : List String} (hform : T.getAgentNewListAccessUrl agentType = some form) :
    ∃ menu, T.access agentType = some menu ∧ ∀ u ∈ form, u ∈ urls menu := by
  unfold getAgentNewListAccessUrl at hform
  unfold access
  cases hmodules : T.type2access agentType with
  | none => simp [hmodules] at hform
  | some modules =>
    cases hlist : T.type2accessList agentType with
    | none => simp [hmodules, hlist] at hform
    | some list =>
      simp only [hmodules, hlist, Option.some.injEq] at hform
      subst hform
      refine ⟨_, rfl, fun u hu => ?_⟩
      obtain ⟨hin, hmenu⟩ := mem_newList hu
      obtain ⟨o, ho, rfl⟩ := List.mem_map.1 hin
      by_cases hmodule : o.url ∈ urls modules
      · exact List.mem_map.2 ((List.mem_map.1 hmodule).imp fun o ho => ho.imp_left (List.mem_append_left _))
      · exact List.mem_map_of_mem (List.mem_append_right _ (List.mem_filter.2 ⟨ho, decide_eq_true ⟨hmodule, hmenu⟩⟩))

end AccessModule

/-! ## The tables -/

section Tables

def AccessObj.main (a field : String) : AccessObj := ⟨.name a, field, true⟩

def AccessObj.group (a field : String) : AccessObj := ⟨.name a, field, false⟩

def AccessObj.get (a b field : String) : AccessObj := ⟨.path .GET a b, field, false⟩

def AccessObj.post (a b field : String) : AccessObj := ⟨.path .POST a b, field, false⟩

def menuModules : List AccessObj :=
  [.main "menu" "MENU_PRIMARY_TXT",
    .group "sys" "MENU_SYS_TXT",
    .get "setting" "system" "MENU_GAME_PAY_LIST_TXT",
    .get "setting" "hotUpDateSetting" "MENU_HOT_UPDATE_LIST_TXT",
    .group "game" "MENU_GAME_TXT",
    .get "game" "module/list" "MENU_GAME_MODULE_LIST_TXT",
    .get "game" "list" "MENU_GAME_LIST_TXT",
    .get "game" "broadList?broad_belone=HALL" "MENU_GAME_BROAD_LIST_TXT",
    .group "notic" "MENU_NOTIC_TXT",
    .get "notic" "temp/list" "MENU_NOTIC_TEMP_TXT",
    .get "notic" "list" "MENU_NOTIC_LIST_TXT",
    .get "notic" "active/list" "MENU_ACTIVE_LIST_TXT",
    .get "notic" "mail/list" "MENU_NOTIC_MAIL_LIST_TXT",
    .group "goods" "MENU_GOODS_TXT",
    .get "goods" "list" "MENU_GOODS_LIST_TXT",
    .group "agent" "MENU_AGENT_TXT",
    .get "agent" "list" "MENU_AGENT_LIST_TXT",
    .get "agent" "active" "MENU_AGENT_ACTIVE_TXT",
    .get "agent" "room/list" "MENU_AGENT_ROOM_LIST_TXT",
    .group "member" "MENU_MEMBER_TXT",
    .get "agent" "member/curOnline" "MENU_AGENT_MEMBER_CURONLINE_TXT",
    .get "member" "dayUseCard" "MENU_AGENT_MEMBER_DAYUSE_TXT",
    .get "member" "search/hall" "MENU_MEMBER_SEARCH_TXT",
    .get "member" "list" "MENU_MEMBER_LIST_TXT",
    .get "member" "joinList" "MENU_MEMBER_JOINLIST_TXT",
    .get "member" "gm/list" "MENU_MEMBER_GM_SET_TXT",
    .group "order" "MENU_ORDER_TXT",
    .get "order" "buy" "MENU_ORDER_BUY_TXT",
    .get "order" "wechat/record" "MENU_ORDER_WECHAT_TXT",
    .get "order" "buy/record" "MENU_ORDER_BUY_RECORD_TXT",
    .get "order" "sale/record" "MENU_ORDER_SALE_RECORD_TXT",
    .get "fish" "chargeAndOrder" "MENU_FISH_CHARGE_AND_ORDERS",
    .main "accounts" "MENU_ACCOUNTS_TXT",
    .get "statistics" "reg" "MENU_STATISTICS_REG_TXT",
    .get "statistics" "active" "MENU_STATISTICS_ACTIVE_TXT",
    .main "accounts" "MENU_REPORT_TXT",
    .get "statistics" "saleReport" "MENU_STATISTICS_SALEREPORT_TXT",
    .get "statistics" "buyReport" "MENU_STATISTICS_BUYREPORT_TXT",
    .get "statistics" "allAgentSaleReport" "MENU_STATISTICS_AGENT_SALEREPORT_TXT",
    .get "statistics" "allAgentBuyReport" "MENU_STATISTICS_AGENT_BUYREPORT_TXT",
    .get "statistics" "rateReport" "MENU_STATISTICS_RATEREPORT_TXT",
    .main "person" "MENU_PERSON_TXT",
    .get "self" "modifyPasswd" "MENU_SELF_MODIFYPASSWD_TXT",
    .get "self" "syslog" "MENU_SELF_SYSLOG_TXT",
    .get "self" "loginLog" "MENU_SELF_LOGINLOG_TXT",
    .main "party" "MENU_PARTY_MODEL_TXT",
    .group "party" "MENU_PARTY_ONE",
    .get "party" "setting" "PARTY_COMPETITION_SETTING",
    .get "party" "competition/journal" "PARTY_COMPETITION_JOURNAL",
    .get "party" "competition/operate" "PARTY_COMPETITION_OPERATE",
    .group "gold" "MENU_PARTY_TWO",
    .get "gold" "field" "GOLD_USER_DATA",
    .get "gold" "operate" "GOLD_OPERATE",
    .get "gold" "ai" "GOLD_AI_DATA",
    .group "party" "MENU_PARTY_THREE"]

def fishMenuModules : List AccessObj :=
  [.main "menu" "MENU_PRIMARY_TXT",
    .group "sys" "MENU_SYS_TXT",
    .get "setting" "fish/system" "MENU_FISH_SETTING_TXT",
    .get "setting" "hotUpDateSetting?sys=fish" "MENU_HOT_UPDATE_LIST_TXT",
    .get "fish" "order/level/query_list" "MENU_FISH_SETTING_LEVEL_TXT",
    .group "game" "MENU_GAME_TXT",
    .get "fish" "chargeAndOrder" "MENU_FISH_CHARGE_AND_ORDERS",
    .get "fish" "item/list" "MENU_FISH_ITEM_LIST_TXT",
    .get "fish" "room/list" "MENU_FISH_ROOM_LIST_TXT",
    .get "fish" "statis" "MENU_FISH_STATIS_TXT",
    .get "fish" "send/system/mail" "MENU_FISH_SEND_MAIL_TXT",
    .get "fish" "props" "MENU_FISH_PROPS_TXT",
    .group "agent" "MENU_AGENT_TXT",
    .get "agent" "list" "MENU_AGENT_LIST_TXT",
    .group "notic" "MENU_NOTIC_TXT",
    .get "game" "broadList?broad_belone=FISH" "MENU_GAME_BROAD_LIST_TXT",
    .get "notic" "list/fish" "MENU_NOTIC_LIST_TXT",
    .get "notic" "active/list/fish" "MENU_ACTIVE_LIST_TXT",
    .group "benefit" "MENU_BENEFIT_TXT",
    .get "benefit" "sign/list" "MENU_BENEFIT_SIGN_TITLE",
    .get "benefit" "save" "MENU_BENEFIT_SAVE_TITLE",
    .group "goods" "MENU_GOODS_TXT",
    .get "goods" "list?sys=fish" "MENU_GOODS_LIST_TXT",
    .get "goods" "fish/reward/list" "MENU_GOODS_REWARD_LIST_TXT",
    .get "goods" "reward/exchange/list" "MENU_GOODS_EXCHANGE_LIST_TXT",
    .get "goods" "currency/exchange/list" "MENU_GOODS_CURRENCY_EXCHANGE_LIST_TXT",
    .group "member" "MENU_MEMBER_TXT",
    .get "member" "search/fish" "MENU_MEMBER_SEARCH_COIN_TXT",
    .get "fish" "member/list" "MENU_MEMBER_LIST_TXT",
    .get "fish" "online/list" "MENU_FISH_ONLINE_LIST_TXT",
    .get "order" "wechat/record/FISH" "MENU_FISH_RECHARGE_LIST_TXT",
    .main "member" "MENU_FISH_DATA_TXT",
    .get "fish" "bet/list" "MENU_FISH_BET_LIST_TXT",
    .get "fish" "data/query" "MENU_HOT_DATA_QUERY_TXT"]

def accessSadminModules : List AccessObj :=
  [.main "menu" "MENU_PRIMARY_TXT",
    .group "sys" "MENU_SYS_TXT",
    .get "setting" "system" "MENU_GAME_PAY_LIST_TXT",
    .get "setting" "hotUpDateSetting" "MENU_HOT_UPDATE_LIST_TXT",
    .get "fish" "order/level/query_list" "MENU_FISH_SETTING_LEVEL_TXT",
    .get "fish" "agent/list" "MENU_FISH_GUILD_LIST",
    .get "fish" "chargeAndOrder" "MENU_FISH_CHARGE_AND_ORDERS",
    .get "fish" "item/list" "MENU_FISH_ITEM_LIST_TXT",
    .get "fish" "statis/test" "MENU_FISH_STATIS_TXT",
    .get "fish" "send/system/mail" "MENU_FISH_SEND_MAIL_TXT",
    .get "goods" "currency/exchange/list" "MENU_GOODS_CURRENCY_EXCHANGE_LIST_TXT",
    .get "goods" "currency/exchange/del" "MENU_GOODS_CURRENCY_EXCHANGE_LIST_TXT",
    .get "goods" "currency/exchange/modify" "MENU_GOODS_CURRENCY_EXCHANGE_LIST_TXT",
    .post "goods" "currency/exchange/modify" "MENU_GOODS_CURRENCY_EXCHANGE_LIST_TXT",
    .get "fish" "send/system/mail" "MENU_FISH_SEND_MAIL_TXT",
    .get "fish" "statis" "MENU_FISH_STATIS_TXT",
    .get "fish" "data/reward/modify" "MENU_FISH_DATA_MODIFY_TXT",
    .get "fish" "bet/list" "MENU_FISH_BET_LIST_TXT",
    .get "fish" "data/modify" "MENU_FISH_DATA_MODIFY_TXT",
    .get "fish" "online/list" "MENU_FISH_ONLINE_LIST_TXT",
    .get "fish" "recharge/list" "MENU_FISH_RECHARGE_LIST_TXT",
    .get "fish" "room/list" "MENU_FISH_ROOM_LIST_TXT",
    .get "goods" "fish/reward/list" "MENU_GOODS_REWARD_LIST_TXT",
    .get "goods" "reward/exchange/list" "MENU_GOODS_EXCHANGE_LIST_TXT",
    .get "goods" "list?sys=fish" "MENU_GOODS_LIST_TXT",
    .get "fish" "data/query" "MENU_HOT_DATA_QUERY_TXT",
    .get "setting" "fish/system" "MENU_GAME_PAY_LIST_TXT",
    .get "fish" "member/list" "MENU_MEMBER_LIST_TXT",
    .get "game" "broadList?broad_belone=HALL" "MENU_GAME_BROAD_LIST_TXT",
    .get "game" "broadList?broad_belone=FISH" "MENU_GAME_BROAD_LIST_TXT",
    .get "notic" "list/fish" "MENU_NOTIC_LIST_TXT",
    .get "notic" "active/list/fish" "MENU_NOTIC_LIST_TXT",
    .get "order" "wechat/record/FISH" "MENU_FISH_RECHARGE_LIST_TXT",
    .get "setting" "hotUpDateSetting?sys=fish" "MENU_HOT_UPDATE_LIST_TXT",
    .get "member" "search/fish" "MENU_MEMBER_SEARCH_COIN_TXT",
    .group "game" "MENU_GAME_TXT",
    .get "game" "list" "MENU_GAME_LIST_TXT",
    .get "game" "notice" "MENU_GAME_NOTICE_TXT",
    .get "game" "broadList" "MENU_GAME_BROAD_LIST_TXT",
    .group "notic" "MENU_NOTIC_TXT",
    .get "notic" "list" "MENU_NOTIC_LIST_TXT",
    .get "notic" "active/list" "MENU_NOTIC_LIST_TXT",
    .group "benefit" "MENU_BENEFIT_TXT",
    .get "benefit" "sign/list" "MENU_BENEFIT_SIGN_TITLE",
    .get "benefit" "save" "MENU_BENEFIT_SAVE_TITLE",
    .group "agent" "MENU_AGENT_TXT",
    .get "agent" "list" "代理列表",
    .get "agent" "active" "MENU_AGENT_ACTIVE_TXT",
    .get "agent" "room/list" "MENU_AGENT_ROOM_LIST_TXT",
    .get "agent" "room/kick" "LIST_ROOM_DISSOLVE_TXT",
    .group "goods" "MENU_GOODS_TXT",
    .get "goods" "list" "MENU_GOODS_LIST_TXT",
    .group "member" "MENU_MEMBER_TXT",
    .get "agent" "member/curOnline" "MENU_AGENT_MEMBER_CURONLINE_TXT",
    .get "member" "dayUseCard" "MENU_AGENT_MEMBER_DAYUSE_TXT",
    .get "member" "list" "MENU_MEMBER_LIST_TXT",
    .get "member" "gm/list" "MENU_MEMBER_GM_SET_TXT",
    .group "order" "MENU_ORDER_TXT",
    .get "order" "wechat/record" "MENU_ORDER_WECHAT_TXT",
    .get "order" "sale/record" "MENU_ORDER_SALE_RECORD_TXT",
    .main "accounts" "MENU_ACCOUNTS_TXT",
    .get "statistics" "saleReport" "MENU_STATISTICS_SALEREPORT_TXT",
    .get "statistics" "allAgentSaleReport" "MENU_STATISTICS_AGENT_SALEREPORT_TXT",
    .get "statistics" "allAgentBuyReport" "MENU_STATISTICS_AGENT_BUYREPORT_TXT",
    .get "statistics" "rateReport" "MENU_STATISTICS_RATEREPORT_TXT",
    .get "statistics" "reg" "MENU_STATISTICS_REG_TXT",
    .get "statistics" "active" "MENU_STATISTICS_ACTIVE_TXT",
    .main "person" "MENU_PERSON_TXT",
    .get "self" "modifyPasswd" "MENU_SELF_MODIFYPASSWD_TXT",
    .get "self" "syslog" "MENU_SELF_SYSLOG_TXT",
    .get "self" "loginLog" "MENU_SELF_LOGINLOG_TXT",
    .main "party" "MENU_PARTY_MODEL_TXT",
    .group "party" "MENU_PARTY_ONE",
    .get "party" "setting" "PARTY_COMPETITION_SETTING",
    .get "party" "competition/journal" "PARTY_COMPETITION_JOURNAL",
    .get "party" "competition/operate" "PARTY_COMPETITION_OPERATE",
    .group "gold" "MENU_PARTY_TWO",
    .get "gold" "field" "GOLD_USER_DATA",
    .get "gold" "operate" "GOLD_OPERATE",
    .get "gold" "ai" "GOLD_AI_DATA",
    .group "party" "MENU_PARTY_THREE"]

def accessCompanyModules : List AccessObj :=
  [.main "menu" "MENU_PRIMARY_TXT",
    .group "game" "MENU_GAME_TXT",
    .get "game" "broadList" "MENU_GAME_BROAD_LIST_TXT",
    .get "game" "broadList?broad_belone=HALL" "MENU_GAME_BROAD_LIST_TXT",
    .group "agent" "MENU_AGENT_TXT",
    .get "agent" "list" "MENU_AGENT_LIST_TXT",
    .get "agent" "active" "MENU_AGENT_ACTIVE_TXT",
    .get "agent" "room/list" "MENU_AGENT_ROOM_LIST_TXT",
    .get "agent" "room/kick" "LIST_ROOM_DISSOLVE_TXT",
    .group "notic" "MENU_NOTIC_TXT",
    .get "notic" "list" "MENU_NOTIC_LIST_TXT",
    .group "member" "MENU_MEMBER_TXT",
    .get "agent" "member/curOnline" "MENU_AGENT_MEMBER_CURONLINE_TXT",
    .get "member" "list" "MENU_MEMBER_LIST_TXT",
    .get "member" "search/hall" "MENU_MEMBER_SEARCH_TXT",
    .group "order" "MENU_ORDER_TXT",
    .get "order" "buy" "MENU_ORDER_BUY_TXT",
    .get "order" "buy/record" "MENU_ORDER_BUY_RECORD_TXT",
    .get "order" "sale/record" "MENU_ORDER_SALE_RECORD_TXT",
    .get "fish" "chargeAndOrder" "MENU_FISH_CHARGE_AND_ORDERS",
    .main "accounts" "MENU_ACCOUNTS_TXT",
    .get "statistics" "saleReport" "MENU_STATISTICS_SALEREPORT_TXT",
    .get "statistics" "buyReport" "MENU_STATISTICS_BUYREPORT_TXT",
    .get "statistics" "allAgentSaleReport" "MENU_STATISTICS_AGENT_SALEREPORT_TXT",
    .get "statistics" "allAgentBuyReport" "MENU_STATISTICS_AGENT_BUYREPORT_TXT",
    .get "statistics" "rateReport" "MENU_STATISTICS_RATEREPORT_TXT",
    .get "statistics" "login" "MENU_STATISTICS_LOGIN_TXT",
    .get "statistics" "active" "MENU_STATISTICS_ACTIVE_TXT",
    .main "person" "MENU_PERSON_TXT",
    .get "self" "modifyPasswd" "MENU_SELF_MODIFYPASSWD_TXT",
    .get "self" "syslog" "MENU_SELF_SYSLOG_TXT",
    .get "self" "loginLog" "MENU_SELF_LOGINLOG_TXT"]

def accessAgOneClassModules : List AccessObj :=
  [.main "menu" "MENU_PRIMARY_TXT",
    .group "agent" "MENU_AGENT_TXT",
    .get "agent" "list" "MENU_AGENT_LIST_TXT",
    .get "agent" "active" "MENU_AGENT_ACTIVE_TXT",
    .get "agent" "room/list" "MENU_AGENT_ROOM_LIST_TXT",
    .get "agent" "room/kick" "LIST_ROOM_DISSOLVE_TXT",
    .group "member" "MENU_MEMBER_TXT",
    .get "member" "search/hall" "MENU_MEMBER_SEARCH_TXT",
    .get "agent" "member/curOnline" "MENU_AGENT_MEMBER_CURONLINE_TXT",
    .get "member" "list" "MENU_MEMBER_LIST_TXT",
    .get "member" "joinList" "MENU_MEMBER_JOINLIST_TXT",
    .group "order" "MENU_ORDER_TXT",
    .get "order" "buy" "MENU_ORDER_BUY_TXT",
    .get "order" "buy/record" "MENU_ORDER_BUY_RECORD_TXT",
    .get "order" "sale/record" "MENU_ORDER_SALE_RECORD_TXT",
    .get "fish" "chargeAndOrder" "MENU_FISH_CHARGE_AND_ORDERS",
    .main "accounts" "MENU_ACCOUNTS_TXT",
    .get "statistics" "saleReport" "MENU_STATISTICS_SALEREPORT_TXT",
    .get "statistics" "buyReport" "MENU_STATISTICS_BUYREPORT_TXT",
    .get "statistics" "allAgentSaleReport" "MENU_STATISTICS_AGENT_SALEREPORT_TXT",
    .get "statistics" "allAgentBuyReport" "MENU_STATISTICS_AGENT_BUYREPORT_TXT",
    .get "statistics" "login" "MENU_STATISTICS_LOGIN_TXT",
    .get "statistics" "active" "MENU_STATISTICS_ACTIVE_TXT",
    .main "person" "MENU_PERSON_TXT",
    .get "self" "modifyPasswd" "MENU_SELF_MODIFYPASSWD_TXT",
    .get "self" "syslog" "MENU_SELF_SYSLOG_TXT",
    .get "self" "loginLog" "MENU_SELF_LOGINLOG_TXT"]

def accessAgTwoClassModules : List AccessObj :=
  [.main "menu" "MENU_PRIMARY_TXT",
    .group "agent" "MENU_AGENT_TXT",
    .get "agent" "room/list" "MENU_AGENT_ROOM_LIST_TXT",
    .get "agent" "room/kick" "LIST_ROOM_DISSOLVE_TXT",
    .group "member" "MENU_MEMBER_TXT",
    .get "member" "search/hall" "MENU_MEMBER_SEARCH_TXT",
    .get "agent" "member/curOnline" "MENU_AGENT_MEMBER_CURONLINE_TXT",
    .get "member" "list" "MENU_MEMBER_LIST_TXT",
    .get "member" "joinList" "MENU_MEMBER_JOINLIST_TXT",
    .group "order" "MENU_ORDER_TXT",
    .get "order" "buy" "MENU_ORDER_BUY_TXT",
    .get "order" "buy/record" "MENU_ORDER_BUY_RECORD_TXT",
    .get "fish" "chargeAndOrder" "MENU_FISH_CHARGE_AND_ORDERS",
    .main "accounts" "MENU_ACCOUNTS_TXT",
    .get "statistics" "buyReport" "MENU_STATISTICS_BUYREPORT_TXT",
    .get "statistics" "takeCard" "MENU_STATISTICS_CARD_TXT",
    .get "statistics" "login" "MENU_STATISTICS_LOGIN_TXT",
    .get "statistics" "count" "MENU_STATISTICS_COUNT_TXT",
    .main "person" "MENU_PERSON_TXT",
    .get "self" "modifyPasswd" "MENU_SELF_MODIFYPASSWD_TXT",
    .get "self" "syslog" "MENU_SELF_SYSLOG_TXT",
    .get "self" "loginLog" "MENU_SELF_LOGINLOG_TXT"]

def accessSadminList : List AccessObj :=
  [.get "fish" "item/can_use" "MENU_FISH_ITEM_LIST_TXT",
    .post "fish" "item/modify" "MENU_FISH_ITEM_LIST_TXT",
    .get "fish" "item/modify" "MENU_FISH_ITEM_LIST_TXT",
    .get "fish" "item/del" "MENU_FISH_ITEM_LIST_TXT",
    .get "fish" "create/item" "MENU_FISH_ITEM_LIST_TXT",
    .get "fish" "clear/statis/test" "MENU_FISH_SEND_MAIL_TXT",
    .get "fish" "clear/statis" "MENU_FISH_SEND_MAIL_TXT",
    .post "fish" "send/system/mail" "MENU_FISH_SEND_MAIL_TXT",
    .get "goods" "currency/exchange/create" "MENU_GOODS_CURRENCY_EXCHANGE_LIST_TXT",
    .get "fish" "list" "FISH_ROOM_LIST_TXT",
    .get "fish" "sys/charge" "FISH_ROOM_CREATE_TXT",
    .post "fish" "sys/charge" "FISH_ROOM_CREATE_TXT",
    .get "fish" "room/create" "FISH_ROOM_CREATE_TXT",
    .get "fish" "preset/value" "MENU_FISH_STATIS_TXT",
    .post "fish" "preset/value" "MENU_FISH_STATIS_TXT",
    .get "agent" "list" "MENU_AGENT_LIST_TXT",
    .get "agent" "create" "LIST_AGENT_CREATE_TXT",
    .get "agent" "modify" "LIST_AGENT_MODIFY_TXT",
    .get "agent" "info" "LIST_AGENT_INFO_TXT",
    .get "agent" "freeze" "LIST_AGENT_FREEZE_TXT",
    .get "agent" "trail" "LIST_AGENT_TRAIL_TXT",
    .get "agent" "recharge" "LIST_AGENT_RECHARGE_TXT",
    .get "agent" "auto_check" "LIST_AGENT_CHECK_TXT",
    .get "agent" "create_auth" "LIST_AGENT_AUTH_TXT",
    .get "agent" "open_auth" "LIST_AGENT_OPEN_AUTH_TXT",
    .get "member" "list" "MENU_MEMBER_LIST_TXT",
    .get "member" "kick" "LIST_MEMBER_KICK_TXT",
    .get "member" "removeCard" "LIST_MEMBER_REMOVECARD_TXT",
    .get "member" "modify" "LIST_MEMBER_MODIFY_TXT",
    .get "member" "freeze" "LIST_MEMBER_FREEZE_TXT",
    .get "member" "addCard" "LIST_MEMBER_CHARGE_TXT",
    .get "notice" "list" "MENU_GAME_NOTICE_LIST_TXT",
    .get "notice" "modify" "LIST_GAME_NOTICE_MODIFY",
    .get "notice" "del" "LIST_GAME_NOTICE_DEL",
    .get "notice" "push" "LIST_GAME_NOTICE_PUSH",
    .get "notice" "active/push" "LIST_GAME_NOTICE_PUSH",
    .get "notice" "active/modify" "LIST_GAME_NOTICE_PUSH",
    .get "notice" "active/del" "LIST_GAME_NOTICE_DEL"]

def accessCompanyList : List AccessObj :=
  [.get "fish" "sys/charge" "FISH_ROOM_CREATE_TXT",
    .post "fish" "sys/charge" "FISH_ROOM_CREATE_TXT",
    .get "agent" "list" "MENU_AGENT_LIST_TXT",
    .get "agent" "create" "LIST_AGENT_CREATE_TXT",
    .get "agent" "modify" "LIST_AGENT_MODIFY_TXT",
    .get "agent" "info" "LIST_AGENT_INFO_TXT",
    .get "agent" "freeze" "LIST_AGENT_FREEZE_TXT",
    .get "agent" "open_auth" "LIST_AGENT_OPEN_AUTH_TXT",
    .get "member" "list" "MENU_MEMBER_LIST_TXT",
    .get "member" "kick" "LIST_MEMBER_KICK_TXT",
    .get "member" "removeCard" "LIST_MEMBER_REMOVECARD_TXT",
    .get "member" "modify" "LIST_MEMBER_MODIFY_TXT",
    .get "member" "freeze" "LIST_MEMBER_FREEZE_TXT",
    .get "notice" "list" "MENU_GAME_NOTICE_LIST_TXT",
    .get "notice" "modify" "LIST_GAME_NOTICE_MODIFY",
    .get "notice" "del" "LIST_GAME_NOTICE_DEL",
    .get "notice" "push" "LIST_GAME_NOTICE_PUSH",
    .get "notice" "active/push" "LIST_GAME_NOTICE_PUSH",
    .get "notice" "active/modify" "LIST_GAME_NOTICE_MODIFY"]

def accessAgOneClassList : List AccessObj :=
  [.get "agent" "list" "MENU_AGENT_LIST_TXT",
    .get "agent" "create" "LIST_AGENT_CREATE_TXT",
    .get "agent" "modify" "LIST_AGENT_MODIFY_TXT",
    .get "agent" "info" "LIST_AGENT_INFO_TXT",
    .get "member" "list" "MENU_MEMBER_LIST_TXT",
    .get "member" "kick" "LIST_MEMBER_KICK_TXT",
    .get "member" "modify" "LIST_MEMBER_MODIFY_TXT",
    .post "member" "open_auth" "LIST_MEMBER_OPEN_TXT",
    .get "agent" "room/list" "MENU_AGENT_ROOM_LIST_TXT",
    .get "agent" "room/kick" "LIST_ROOM_DISSOLVE_TXT"]

def accessAgTwoClassList : List AccessObj :=
  [.get "agent" "list" "MENU_AGENT_LIST_TXT",
    .get "agent" "create" "LIST_AGENT_CREATE_TXT",
    .get "agent" "modify" "LIST_AGENT_MODIFY_TXT",
    .get "agent" "info" "LIST_AGENT_INFO_TXT",
    .get "agent" "freeze" "LIST_AGENT_FREEZE_TXT",
    .get "member" "list" "MENU_MEMBER_LIST_TXT",
    .get "member" "kick" "LIST_MEMBER_KICK_TXT",
    .get "member" "modify" "LIST_MEMBER_MODIFY_TXT",
    .post "member" "open_auth" "LIST_MEMBER_OPEN_TXT",
    .get "agent" "room/list" "MENU_AGENT_ROOM_LIST_TXT",
    .get "agent" "room/kick" "LIST_ROOM_DISSOLVE_TXT"]

/-- `access_module.py` as it stands. -/
def accessModule : AccessModule :=
  { menuModules, fishMenuModules, accessSadminModules, accessCompanyModules, accessAgOneClassModules,
    accessAgTwoClassModules, accessSadminList, accessCompanyList, accessAgOneClassList, accessAgTwoClassList }

end Tables

end FishWeb.Admin
