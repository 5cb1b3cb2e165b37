import FishWeb.Lib.Pool
import FishWeb.Lib.Runs
import FishWeb.Lib.Blocks
import FishWeb.Lib.Python
import FishWeb.Lib.Decimal
import FishWeb.Match.Model
import FishWeb.Match.SelfCheck
import FishWeb.Match.Dispatch
import FishWeb.Match.Queue
import FishWeb.Lib.Rely
import FishWeb.Match.Race
import FishWeb.Lib.Counters
import FishWeb.Xxl.Model
import FishWeb.Xxl.Round
import FishWeb.Xxl.Settle
import FishWeb.Xxl.Honour
import FishWeb.Xxl.Budget
import FishWeb.Box.Model
import FishWeb.Box.Conserve
import FishWeb.Lib.Escrow
import FishWeb.Box.Race
import FishWeb.Box.Lock
import FishWeb.Box.Vip
import FishWeb.Lib.Sets
import FishWeb.Friend.Model
import FishWeb.Friend.Symmetry
import FishWeb.Mail.Model
import FishWeb.Mail.Commands
import FishWeb.Mail.Conserve
import FishWeb.Mail.Mailbox
import FishWeb.Mail.Owner
import FishWeb.Mail.Deliver
import FishWeb.Pay.Model
import FishWeb.Pay.Commands
import FishWeb.Pay.Once
import FishWeb.Pay.Agreement
import FishWeb.Pay.Partition
import FishWeb.Pay.Recharge
import FishWeb.Lib.Connection
import FishWeb.Lib.Script
import FishWeb.Apple.Model
import FishWeb.Apple.Once
import FishWeb.Friend.Consent
import FishWeb.Order.Model
import FishWeb.Order.Settle
import FishWeb.Order.Race
import FishWeb.Lib.Serial
import FishWeb.Common.Model
import FishWeb.Benefit.Model
import FishWeb.Benefit.Once
import FishWeb.Sign.Model
import FishWeb.Sign.Once
import FishWeb.Question.Model
import FishWeb.Question.Limits
import FishWeb.Server.Model
import FishWeb.Server.Single
import FishWeb.Lib.Index
import FishWeb.Nickname.Model
import FishWeb.Nickname.Index
import FishWeb.Lib.Past
import FishWeb.Lib.Reserve
import FishWeb.Lottery.Model
import FishWeb.Lottery.Draws
import FishWeb.Lib.Cascade
import FishWeb.Rate.Model
import FishWeb.Rate.Split
import FishWeb.Diamond.Model
import FishWeb.Diamond.Once
import FishWeb.Downline.Switch
import FishWeb.Guild.Model
import FishWeb.Guild.Handlers
import FishWeb.Guild.Cards
import FishWeb.Agents.Model
import FishWeb.Agents.Order
import FishWeb.Member.Model
import FishWeb.Member.Transfer
import FishWeb.Lib.Value
import FishWeb.Room.Model
import FishWeb.Club.Model
import FishWeb.Room.Limits
import FishWeb.Club.Limits
import FishWeb.Club.Effects
import FishWeb.Club.Mirror
import FishWeb.Club.Fresh
import FishWeb.Club.Authority
import FishWeb.Club.Race
import FishWeb.Guild.Join
import FishWeb.Guild.Membership
import FishWeb.Wealth.Model
import FishWeb.Wealth.Rank
import FishWeb.Goods.Model
import FishWeb.Goods.Shelf
import FishWeb.Match.Ingame
import FishWeb.Lib.Overlap
import FishWeb.Xxl.Relevance
import FishWeb.Xxl.Canvas
import FishWeb.Xxl.Evaluate
import FishWeb.Lib.Buckets
import FishWeb.Lib.Dice
import FishWeb.Xxl.BeeLine
import FishWeb.Xxl.Maths
import FishWeb.Xxl.Five
import FishWeb.Xxl.Deliver
import FishWeb.Lib.Weeks
import FishWeb.Xxl.Record
import FishWeb.Xxl.Weekly
import FishWeb.Box.Exchange
import FishWeb.Friend.Queue
import FishWeb.Friend.Find
import FishWeb.Order.Lists
import FishWeb.Sign.Race
import FishWeb.Sign.Atomic
import FishWeb.Share.Model
import FishWeb.Share.Protocol
import FishWeb.Lib.SortedSet
import FishWeb.Rank.Model
import FishWeb.Rank.Page
import FishWeb.JoinRoom.Model
import FishWeb.JoinRoom.Admission
import FishWeb.Nickname.Code
import FishWeb.Lib.Budget
import FishWeb.Lottery.Pack
import FishWeb.Lottery.Failed
import FishWeb.Downline.Members
import FishWeb.Broadcast.Model
import FishWeb.Broadcast.Visible
import FishWeb.Lib.Tally
import FishWeb.Member.Totals
import FishWeb.Club.Applications
import FishWeb.Club.Numbers
import FishWeb.Club.Living
import FishWeb.Lib.Dict
import FishWeb.Club.Replay
import FishWeb.Party.Model
import FishWeb.Party.Settle
import FishWeb.Party.Operate
import FishWeb.Coin.Model
import FishWeb.Coin.Journal
import FishWeb.Coin.Allowance
import FishWeb.Lib.Days
import FishWeb.Gold.Model
import FishWeb.Gold.Patch
import FishWeb.Gold.Welfare
import FishWeb.Lib.Union
import FishWeb.Gold.Rank
import FishWeb.Refresh.Limit
import FishWeb.Xxl.Log
import FishWeb.Query.Decode
import FishWeb.GoldRoom.Admission
import FishWeb.Goods.Restock
import FishWeb.Goods.Catalogue
import FishWeb.Guild.Stale
import FishWeb.Games.Catalogue
import FishWeb.Broadcast.Undo
import FishWeb.Niuniu.Chances
import FishWeb.Agents.Fresh
import FishWeb.Lib.Weights
import FishWeb.Xxl.Chance
import FishWeb.Xxl.Runs
import FishWeb.Lib.Bytes
import FishWeb.Socket.Pack
import FishWeb.Lib.Grouping
import FishWeb.Text.Credit
import FishWeb.Lib.Regex
import FishWeb.Lib.Closing
import FishWeb.Text.Entities
import FishWeb.Text.Taken
import FishWeb.Admin.Ticks
import FishWeb.Admin.Menu
import FishWeb.Activity.Online
import FishWeb.Service.Rounds
import FishWeb.Broadcast.Due
