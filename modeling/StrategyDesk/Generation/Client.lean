import StrategyDesk.Generation.Generate

set_option autoImplicit false

namespace StrategyDesk.Generation

inductive Role where
  | system | user
  deriving DecidableEq, Repr

def Role.name : Role → String
  | .system => "system"
  | .user => "user"

structure Message where
  role : Role
  content : String
  deriving DecidableEq, Repr

structure ClientCall where
  model : Json
  budget : Text × Json
  system : Option String
  messages : List Message
  timeout : Json
  deriving Repr

namespace ClientCall

def said (c : ClientCall) (r : Role) : List String :=
  (c.messages.filter fun m => m.role == r).map Message.content

def instructions (c : ClientCall) : List String := c.system.toList ++ c.said .system

end ClientCall

def Vendor.budgetName : Vendor → Text
  | .anthropic => "max_tokens"
  | .openai => "max_completion_tokens"

def Provider.call (p : Provider) (q : Question) : ClientCall :=
  let budget := (p.vendor.budgetName, p.maxTokens)
  match p.vendor with
  | .anthropic => ⟨p.model, budget, some q.system, [⟨.user, q.user⟩], p.timeout⟩
  | .openai => ⟨p.model, budget, none, [⟨.system, q.system⟩, ⟨.user, q.user⟩], p.timeout⟩

/-- A block of an answer. Not every kind of block has a text, and a text may be `null`. -/
inductive Block where
  | textless
  | text (t : Option String)
  deriving DecidableEq, Repr

def Block.text? : Block → Option String
  | .textless => none
  | .text t => t

/-- What a call of a vendor's client comes to: an answer in the vendor's shape, a status that tells
of a failure, no connection, or a failure of any other kind. -/
inductive ClientReply : Vendor → Type where
  | blocks (content : List Block) : ClientReply .anthropic
  | choices (contents : List (Option String)) : ClientReply .openai
  | status {v : Vendor} (code : Int) : ClientReply v
  | unconnected {v : Vendor} (cause detail : String) : ClientReply v
  | broken {v : Vendor} (detail : String) : ClientReply v
  deriving Repr

def ClientReply.completion {v : Vendor} : ClientReply v → Completion
  | blocks content => .answered (content.head?.bind Block.text?)
  | choices contents => .answered (contents.head?.bind id)
  | status code => .refused code
  | unconnected cause detail => .unreachable cause detail
  | broken detail => .broken detail

abbrev Client (σ : Type) (v : Vendor) := σ → ClientCall → ClientReply v × σ

structure Generated (σ : Type) where
  result : Except Failure (Json × Form.Supply)
  client : σ
  calls : List ClientCall
  log : Log

namespace Provider

variable {σ : Type}

def ask (p : Provider) (client : Client σ p.vendor) (s : σ) (q : Question) : Completion × σ :=
  let (reply, s) := client s (p.call q)
  (reply.completion, s)

def generate (p : Provider) (client : Client σ p.vendor) (s : σ) (room : Room)
    (next : Form.Supply) (description : String) : Generated σ :=
  let q := Question.about description
  let (completion, s) := p.ask client s q
  ⟨Generation.generate room next completion, s, [p.call q],
    generateLog p.vendor room next completion⟩

end Provider

end StrategyDesk.Generation
