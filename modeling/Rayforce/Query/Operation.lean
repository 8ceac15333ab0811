import Mathlib.Tactic.TypeStar

/-! The builtin operators, identified by their names (`ops.rs`). -/

namespace Rayforce.Query

/-- A builtin operation. -/
inductive Operation
  | add | subtract | multiply | divide | modulo | divInt | negate
  | equals | notEquals | greaterThan | greaterEqual | lessThan | lessEqual | like
  | and | or | not
  | sum | avg | count | min | max | «first» | last | median | deviation | stddev | pearsonCorr
  | row
  | xbar | ceil | floor | round | rand
  | «in» | distinct | reverse | «group» | take | top | bot | remove | filter | find | within | sect
  | except | union | raze
  | select | update | insert | upsert | «where»
  | innerJoin | leftJoin | asofJoin | windowJoin | windowJoin1
  | asc | desc | xasc | xdesc | iasc | idesc | rank | xrank
  | «at» | key | value | get
  | map | mapLeft | mapRight | pmap | fold | scan | «apply»
  | til | enlist
  | list | «type» | «as» | guid | nilQ
  | date | time | timestamp
  | ser | de | parse | eval | quote | load
  | «do» | «if» | «try» | «return» | raise
  | «set» | «let» | env
  | dict | table | concat
  | «meta» | rc
  deriving DecidableEq, Repr

/-- The name an operation compiles to. -/
def Operation.asStr : Operation → String
  | .add => "+"
  | .subtract => "-"
  | .multiply => "*"
  | .divide => "/"
  | .modulo => "%"
  | .divInt => "div"
  | .negate => "neg"
  | .equals => "=="
  | .notEquals => "!="
  | .greaterThan => ">"
  | .greaterEqual => ">="
  | .lessThan => "<"
  | .lessEqual => "<="
  | .like => "like"
  | .and => "and"
  | .or => "or"
  | .not => "not"
  | .sum => "sum"
  | .avg => "avg"
  | .count => "count"
  | .min => "min"
  | .max => "max"
  | .«first» => "first"
  | .last => "last"
  | .median => "med"
  | .deviation => "dev"
  | .stddev => "stddev"
  | .pearsonCorr => "pearson_corr"
  | .row => "row"
  | .xbar => "xbar"
  | .ceil => "ceil"
  | .floor => "floor"
  | .round => "round"
  | .rand => "rand"
  | .«in» => "in"
  | .distinct => "distinct"
  | .reverse => "reverse"
  | .«group» => "group"
  | .take => "take"
  | .top => "top"
  | .bot => "bot"
  | .remove => "remove"
  | .filter => "filter"
  | .find => "find"
  | .within => "within"
  | .sect => "sect"
  | .except => "except"
  | .union => "union"
  | .raze => "raze"
  | .select => "select"
  | .update => "update"
  | .insert => "insert"
  | .upsert => "upsert"
  | .«where» => "where"
  | .innerJoin => "inner-join"
  | .leftJoin => "left-join"
  | .asofJoin => "asof-join"
  | .windowJoin => "window-join"
  | .windowJoin1 => "window-join1"
  | .asc => "asc"
  | .desc => "desc"
  | .xasc => "xasc"
  | .xdesc => "xdesc"
  | .iasc => "iasc"
  | .idesc => "idesc"
  | .rank => "rank"
  | .xrank => "xrank"
  | .«at» => "at"
  | .key => "key"
  | .value => "value"
  | .get => "get"
  | .map => "map"
  | .mapLeft => "map-left"
  | .mapRight => "map-right"
  | .pmap => "pmap"
  | .fold => "fold"
  | .scan => "scan"
  | .«apply» => "apply"
  | .til => "til"
  | .enlist => "enlist"
  | .list => "list"
  | .«type» => "type"
  | .«as» => "as"
  | .guid => "guid"
  | .nilQ => "nil?"
  | .date => "date"
  | .time => "time"
  | .timestamp => "timestamp"
  | .ser => "ser"
  | .de => "de"
  | .parse => "parse"
  | .eval => "eval"
  | .quote => "quote"
  | .load => "load"
  | .«do» => "do"
  | .«if» => "if"
  | .«try» => "try"
  | .«return» => "return"
  | .raise => "raise"
  | .«set» => "set"
  | .«let» => "let"
  | .env => "env"
  | .dict => "dict"
  | .table => "table"
  | .concat => "concat"
  | .«meta» => "meta"
  | .rc => "rc"

end Rayforce.Query
