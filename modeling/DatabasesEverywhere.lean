import DatabasesEverywhere.Backup.Catalog
import DatabasesEverywhere.Backup.Multipart
import DatabasesEverywhere.Disk.CapacityService
import DatabasesEverywhere.Disk.PlannerCadence
import DatabasesEverywhere.Disk.ProjectIdRuns
import DatabasesEverywhere.Gateway.ClickhouseNative
import DatabasesEverywhere.Gateway.Fencing
import DatabasesEverywhere.Gateway.MongodbTunnel
import DatabasesEverywhere.Gateway.MysqlHandshake
import DatabasesEverywhere.Gateway.MysqlTunnel
import DatabasesEverywhere.Gateway.PostgresStartup
import DatabasesEverywhere.Gateway.Quota
import DatabasesEverywhere.Gateway.RespHandshake
import DatabasesEverywhere.Http.Websockets
import DatabasesEverywhere.MysqlSql.Chunking
import DatabasesEverywhere.MysqlSql.Rebase
import DatabasesEverywhere.Placement.CapacityRuns
import DatabasesEverywhere.Placement.Manifest
import DatabasesEverywhere.Placement.MigrationHistory
import DatabasesEverywhere.Scheduler.Bypass
import DatabasesEverywhere.Scheduler.Recommended
import DatabasesEverywhere.Scheduler.Refresh
import DatabasesEverywhere.Server.Routes
import DatabasesEverywhere.Server.Shutdown
import DatabasesEverywhere.Sql.CopyData
import DatabasesEverywhere.Sql.DollarQuotes
import DatabasesEverywhere.Sql.SharedLists
import DatabasesEverywhere.Sql.Wrapping
import DatabasesEverywhere.Utils.LogRecords
import DatabasesEverywhere.Watcher.BackendRuns
import DatabasesEverywhere.Watcher.WakeUps
